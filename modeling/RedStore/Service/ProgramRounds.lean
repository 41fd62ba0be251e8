/-
What the program sees of the rounds of the server.

Of a round `main` knows only what can happen in it: a request resets the error buffer, messages
are logged, a call fails, or the process does not survive.  Here these incidents are read off the
rounds of `redhttp_server_run`, and with them the program comes to the end that the server comes
to, with an error buffer exactly if the service has one.
-/
import RedStore.Service.ErrorBuffer
import RedStore.Service.ProgramLife
import RedStore.Service.Running

namespace RedStore.Service
open CLib RedHttp

variable {T R σ : Type}

/-! ### The incidents of a round -/

section Incidents

variable (w : World T R σ) (server : Server)

/-- A request that is not answered by the server itself comes to the handlers, and so to
`reset_error_buffer`. -/
def comesToHandlers (r : Request) : Bool :=
  match redhttpRequestRead w.heap r with
  | .error _ _ => false
  | .ok result r' =>
    (decide (result = 0) || (redhttpResponseNewErrorPage w.heap .badRequest []).isNone) &&
      r'.method.isSome && r'.path.any fun path => decide (path ≠ CString.lit "*")

/-- A message of Redland, which there is room for. -/
def messageIncident (m : LogMessage) : Incident := .happening (.message m.level true)

/-- The incidents of a request, by the service behind it. -/
def requestIncidents (r : Request) (app : App σ) : List Incident :=
  if comesToHandlers w r then .request :: app.logged.map messageIncident else []

/-- The incidents of a client. -/
def clientIncidents (client : Client) (p : Process (App σ)) : List Incident :=
  match client.answeredAt with
  | none => []
  | some serverAddr =>
    if client.stream then
      match redhttpServerHandleRequest w.heap client.now (programHandlers w client.now)
          ⟨client.request server serverAddr, p.app⟩ with
      | .ok _ c => requestIncidents w (client.request server serverAddr) c.app
      | .error fault c =>
        requestIncidents w (client.request server serverAddr) c.app ++ [.fault fault]
    else [.fault .nullPointer]

/-- The incidents at a socket. -/
def socketIncidents (waiting : List (ℕ × Except CString Client)) (sock : ℕ)
    (p : Process (App σ)) : List Incident :=
  match accepted (server.socketMax + 1) waiting sock with
  | none => []
  | some (.error _) => [.failure]
  | some (.ok client) => clientIncidents w server client p

/-- The incidents of a program behind another; there are none if that one does not end well. -/
def incidentsBehind {α : Type} (x : ProcessM (App σ) Unit) (incidents : Process (App σ) → List α)
    (p : Process (App σ)) : List α :=
  match x p with
  | .ok _ p' => incidents p'
  | .error _ _ => []

/-- The incidents at some sockets. -/
def loopIncidents (waiting : List (ℕ × Except CString Client)) :
    List ℕ → Process (App σ) → List Incident
  | [], _ => []
  | sock :: sockets, p => socketIncidents w server waiting sock p ++
    incidentsBehind (acceptAt w.heap (programHandlers w) server waiting sock)
      (loopIncidents waiting sockets) p

/-- The incidents behind `select`. -/
def selectIncidents (select : Select) (p : Process (App σ)) : List Incident :=
  match select with
  | .interrupted => []
  | .failed _ => [.failure]
  | .ready waiting => loopIncidents w server waiting server.sockets p

/-- The incidents of a round. -/
def roundIncidents (select : Select) (p : Process (App σ)) : List Incident :=
  if ∀ sock ∈ server.sockets, sock < fdSetsize then selectIncidents w server select p
  else [.fault .bufferOverflow]

/-- The incidents of some rounds, up to the one that the process does not survive. -/
def incidentsOf : List Select → Process (App σ) → List (List Incident)
  | [], _ => []
  | select :: rounds, p => roundIncidents w server select p ::
    incidentsBehind (redhttpServerRun w.heap (programHandlers w) server select)
      (incidentsOf rounds) p

end Incidents

/-! ### The program and the service -/

/-- A program that runs and has an error buffer exactly if the service has. -/
structure Follows (app : App σ) (q : Program) : Prop where
  running : q.running = true
  buffer : BufferInv app
  pointer : .errorBuffer ∈ q.pointers ↔ app.errorBuffer.isSome = true
  object : .errorBuffer ∈ q.pointers → .errorBuffer ∈ q.objects

/-- The program comes to the end that the server comes to. -/
inductive EndsLike {α : Type} (a : α) : EStateM.Result Ended (Process (App σ)) Unit →
    EStateM.Result Unit Program α → Prop where
  | ok {p : Process (App σ)} {q : Program} (h : Follows p.app q) :
    EndsLike a (.ok () p) (.ok a q)
  | exited {p : Process (App σ)} {q : Program} (hended : q.ended = some (.exited exitFailure)) :
    EndsLike a (.error (.exited exitFailure) p) (.error () q)
  | faulted {fault : Fault} {p : Process (App σ)} {q : Program}
    (hended : q.ended = some (.faulted fault)) :
    EndsLike a (.error (.faulted fault) p) (.error () q)

/-- A program of the server is seen as its incidents, none of which stops the program. -/
def Seen (x : ProcessM (App σ) Unit) (incidents : Process (App σ) → List Incident) : Prop :=
  ∀ p q, Follows p.app q → (∀ i ∈ incidents p, i.stops = false) →
    EndsLike () (x p) ((incidents p).forM Program.incident q)

/-! ### Requests -/

lemma forM_cons_apply (i : Incident) (round : List Incident) (q : Program) :
    (i :: round).forM Program.incident q =
      (Program.incident i >>= fun _ => round.forM Program.incident) q := rfl

lemma forM_append_apply (round round' : List Incident) (q : Program) :
    (round ++ round').forM Program.incident q =
      (round.forM Program.incident >>= fun _ => round'.forM Program.incident) q :=
  congrFun List.forM_append q

section Requests

variable {w : World T R σ} {q : Program}

/-- A message leaves a buffer. -/
lemma redlandLogHandler_calm {level : LogLevel} (hlevel : level ≠ .fatal)
    (hrunning : q.running = true) (hobject : .errorBuffer ∈ q.pointers → .errorBuffer ∈ q.objects) :
    ∃ q', Program.redlandLogHandler level true q = .ok () q' ∧ q'.running = true ∧
      .errorBuffer ∈ q'.pointers ∧ .errorBuffer ∈ q'.objects := by
  obtain ⟨q₁, hlog, hrunning₁, hpointers, hobjects⟩ : ∃ q₁, Program.redstoreLog level q = .ok () q₁ ∧
      q₁.running = true ∧ q₁.pointers = q.pointers ∧ q₁.objects = q.objects := by
    rw [Program.redstoreLog_apply, if_neg hlevel]
    split
    · exact ⟨_, rfl, hrunning, rfl, rfl⟩
    · exact ⟨q, rfl, hrunning, rfl, rfl⟩
  rw [Program.redlandLogHandler, bind_of_ok hlog, bind_of_ok (get_apply _)]
  by_cases hthere : .errorBuffer ∈ q₁.pointers
  · rw [if_neg (not_not_intro hthere)]
    exact ⟨q₁, rfl, hrunning₁, hthere, hobjects ▸ hobject (hpointers ▸ hthere)⟩
  · rw [if_pos hthere]
    exact ⟨_, rfl, hrunning₁, Finset.mem_insert_self _ _, Multiset.mem_cons_self _ _⟩

/-- Messages leave a buffer, if there are any. -/
lemma forM_messages {messages : List LogMessage} (hcalm : ∀ m ∈ messages, m.level ≠ .fatal)
    (hrunning : q.running = true) (hobject : .errorBuffer ∈ q.pointers → .errorBuffer ∈ q.objects) :
    ∃ q', (messages.map messageIncident).forM Program.incident q = .ok () q' ∧
      q'.running = true ∧
      (.errorBuffer ∈ q'.pointers ↔ .errorBuffer ∈ q.pointers ∨ messages ≠ []) ∧
      (.errorBuffer ∈ q'.pointers → .errorBuffer ∈ q'.objects) := by
  induction messages generalizing q with
  | nil => exact ⟨q, rfl, hrunning, by simp, hobject⟩
  | cons m messages ih =>
    obtain ⟨q₁, hlog, hrunning₁, hpointer, hobject₁⟩ :=
      redlandLogHandler_calm (hcalm m (by simp)) hrunning hobject
    obtain ⟨q', hrest, hrunning', hpointer', hobject'⟩ :=
      ih (fun m hm => hcalm m (by simp [hm])) hrunning₁ fun _ => hobject₁
    refine ⟨q', ?_, hrunning', ?_, hobject'⟩
    · rw [List.map_cons, forM_cons_apply]
      exact (bind_of_ok (x := Program.incident (messageIncident m)) hlog _).trans hrest
    · rw [hpointer']
      exact iff_of_true (.inl hpointer) (.inr (List.cons_ne_nil m messages))

/-- A request leaves the buffer of what has been logged since it came to the handlers. -/
lemma forM_request {messages : List LogMessage} (hcalm : ∀ m ∈ messages, m.level ≠ .fatal)
    (hrunning : q.running = true) (hobject : .errorBuffer ∈ q.pointers → .errorBuffer ∈ q.objects) :
    ∃ q', (Incident.request :: messages.map messageIncident).forM Program.incident q = .ok () q' ∧
      q'.running = true ∧ (.errorBuffer ∈ q'.pointers ↔ messages ≠ []) ∧
      (.errorBuffer ∈ q'.pointers → .errorBuffer ∈ q'.objects) := by
  obtain ⟨q₁, hreset, hrunning₁, hnull⟩ : ∃ q₁, Program.resetErrorBuffer q = .ok () q₁ ∧
      q₁.running = true ∧ .errorBuffer ∉ q₁.pointers := by
    rw [Program.resetErrorBuffer_apply]
    by_cases hthere : .errorBuffer ∈ q.pointers
    · rw [if_pos hthere, if_pos (hobject hthere)]
      exact ⟨_, rfl, hrunning, Finset.notMem_erase _ _⟩
    · rw [if_neg hthere]
      exact ⟨q, rfl, hrunning, hthere⟩
  obtain ⟨q', hrest, hrunning', hpointer', hobject'⟩ :=
    forM_messages hcalm hrunning₁ fun h => absurd h hnull
  refine ⟨q', ?_, hrunning', hpointer'.trans (or_iff_right hnull), hobject'⟩
  rw [forM_cons_apply]
  exact (bind_of_ok (x := Program.incident .request) hreset _).trans hrest

/-- The server answers some requests itself, and the service does not learn of them. -/
lemma answerRequest_app {result : ℕ} {c : Conn (App σ)}
    (h : ((decide (result = 0) || (redhttpResponseNewErrorPage w.heap .badRequest []).isNone) &&
      c.request.method.isSome && c.request.path.any fun path =>
        decide (path ≠ CString.lit "*")) = false) :
    (stateOf (answerRequest w.heap (redstoreHandlers w) result c)).app = c.app := by
  have hdispatch : (c.request.method.isSome && c.request.path.any fun path =>
      decide (path ≠ CString.lit "*")) = false →
      (stateOf (redhttpServerDispatchRequest w.heap (redstoreHandlers w) c)).app = c.app := by
    intro hno
    simp only [redhttpServerDispatchRequest, bind_apply, get_apply]
    cases hpath : c.request.path with
    | none => simp
    | some path =>
      cases hmethod : c.request.method with
      | none => simp
      | some method =>
        have hstar : path = CString.lit "*" := by simpa [hpath, hmethod] using hno
        simp only [if_pos hstar]
        cases asteriskResponse w.heap (redstoreHandlers w) method <;> rfl
  rw [answerRequest]
  cases hpage : redhttpResponseNewErrorPage w.heap .badRequest [] with
  | some page =>
    by_cases hresult : result = 0
    · rw [if_neg (by simp [hresult])]
      exact hdispatch (by simpa [hresult] using h)
    · rw [if_pos hresult]
      rfl
  | none =>
    have hno := hdispatch (by simpa [hpage] using h)
    split
    · exact hno
    · exact hno

/-- Behind a request the buffer is that of the messages; a request that does not come to the
handlers leaves the service alone. -/
lemma handleRequest_app (now : Option Tm) {app : App σ} (h : BufferInv app) (r : Request) :
    BufferInv (stateOf (redhttpServerHandleRequest w.heap now (programHandlers w now)
        ⟨r, app⟩)).app ∧
      (comesToHandlers w r = false →
        (stateOf (redhttpServerHandleRequest w.heap now (programHandlers w now) ⟨r, app⟩)).app =
          app) := by
  have hsend : ∀ answer (c : Conn (App σ)), (stateOf (sendAnswer now answer c)).app = c.app := by
    intro answer c
    cases answer with
    | none => rfl
    | some response => exact app_onRequest _ c
  -- the service changes while the request is answered, and not before or behind
  have hbind : ∀ {result : ℕ} (c : Conn (App σ)),
      (stateOf ((answerRequest w.heap (programHandlers w now) result >>= sendAnswer now) c)).app =
        (stateOf (answerRequest w.heap (programHandlers w now) result c)).app := by
    intro result c
    rw [bind_apply]
    cases answerRequest w.heap (programHandlers w now) result c with
    | ok answer c₁ => exact hsend answer c₁
    | error e c₁ => rfl
  have hinv : ∀ {result : ℕ} (r' : Request), BufferInv
      (stateOf (answerRequest w.heap (programHandlers w now) result ⟨r', app⟩)).app := by
    intro result r'
    have hdispatch : BufferInv (stateOf (redhttpServerDispatchRequest w.heap
        (programHandlers w now) ⟨r', app⟩)).app := h.serveRequest (w := w.at now) r'
    rw [answerRequest]
    split
    · cases redhttpResponseNewErrorPage w.heap .badRequest [] with
      | some page => exact h
      | none => exact hdispatch
    · exact hdispatch
  rw [redhttpServerHandleRequest_eq, bind_apply, comesToHandlers]
  cases hread : redhttpRequestRead w.heap r with
  | error e r' =>
    simp only [onRequest, hread, stateOf_error]
    exact ⟨h, fun _ => trivial⟩
  | ok result r' =>
    simp only [onRequest, hread, hbind]
    exact ⟨hinv r', fun hno => answerRequest_app (w := w.at now) (c := ⟨r', app⟩) hno⟩

/-- The incidents of a request leave the program with the buffer that the service has. -/
lemma forM_requestIncidents {app app' : App σ} {r : Request} (h : Follows app q)
    (hinv : BufferInv app') (hkept : comesToHandlers w r = false → app' = app)
    (hcalm : ∀ i ∈ requestIncidents w r app', i.stops = false) :
    ∃ q', (requestIncidents w r app').forM Program.incident q = .ok () q' ∧ Follows app' q' := by
  cases hcomes : comesToHandlers w r with
  | false =>
    rw [requestIncidents, hcomes, hkept hcomes]
    exact ⟨q, rfl, h⟩
  | true =>
    have hincidents : requestIncidents w r app' =
        .request :: app'.logged.map messageIncident := by rw [requestIncidents, if_pos hcomes]
    have hquiet : ∀ m ∈ app'.logged, m.level ≠ .fatal := by
      intro m hm hfatal
      have hstops := hcalm (messageIncident m)
        (hincidents ▸ List.mem_cons_of_mem _ (List.mem_map_of_mem hm))
      simp [messageIncident, Incident.stops, Happening.stops, hfatal] at hstops
    obtain ⟨q', hrun, hrunning, hpointer, hobject⟩ := forM_request hquiet h.running h.object
    exact ⟨q', hincidents ▸ hrun, hrunning, hinv,
      hpointer.trans hinv.buffer.isSome_iff.symm, hobject⟩

end Requests

/-! ### Rounds -/

section Rounds

variable {w : World T R σ} {server : Server} {x y : ProcessM (App σ) Unit}
  {i j : Process (App σ) → List Incident}

/-- What changes nothing for the service is not seen. -/
lemma seen_nothing (h : ∀ p, ∃ p', x p = .ok () p' ∧ p'.app = p.app) : Seen x fun _ => [] := by
  intro p q hfollows _
  obtain ⟨p', hrun, happ⟩ := h p
  rw [hrun]
  exact .ok (happ ▸ hfollows)

/-- What is seen of two programs, one behind the other. -/
lemma Seen.bind (hx : Seen x i) (hy : Seen y j) :
    Seen (x >>= fun _ => y) fun p => i p ++ incidentsBehind x j p := by
  intro p q hfollows hcalm
  have hfirst := hx p q hfollows fun i hi => hcalm i (List.mem_append_left _ hi)
  dsimp only
  rw [forM_append_apply, bind_apply, bind_apply]
  cases hrun : x p with
  | ok u p' =>
    have hbehind : incidentsBehind x j p = j p' := by rw [incidentsBehind, hrun]
    rw [hrun] at hfirst
    generalize (i p).forM Program.incident q = first at hfirst
    cases hfirst with
    | ok hfollows' =>
      rw [hbehind]
      refine hy p' _ hfollows' fun i hi => hcalm i (List.mem_append_right _ ?_)
      rwa [hbehind]
  | error e p' =>
    rw [hrun] at hfirst
    generalize (i p).forM Program.incident q = first at hfirst
    cases hfirst with
    | exited hended => exact .exited hended
    | faulted hended => exact .faulted hended

lemma seen_serveClient (client : Client) :
    Seen (serveClient w.heap (programHandlers w) server client)
      (clientIncidents w server client) := by
  intro p q hfollows hcalm
  rw [clientIncidents] at hcalm ⊢
  cases hat : client.answeredAt with
  | none =>
    obtain ⟨said, hrun⟩ := @serveClient_of_turnedAway _ w.heap (programHandlers w) server _ p hat
    rw [hrun]
    exact .ok hfollows
  | some serverAddr =>
    simp only [hat] at hcalm ⊢
    cases hstream : client.stream with
    | false =>
      obtain ⟨p', hrun⟩ := @serveClient_of_noStream _ w.heap (programHandlers w) server _ p _ hat
        hstream
      rw [hrun]
      exact .faulted rfl
    | true =>
      simp only [hstream, if_true] at hcalm ⊢
      obtain ⟨hinv, hkept⟩ := handleRequest_app (w := w) client.now hfollows.buffer
        (client.request server serverAddr)
      cases hrun : redhttpServerHandleRequest w.heap client.now (programHandlers w client.now)
          ⟨client.request server serverAddr, p.app⟩ with
      | ok sent c =>
        simp only [hrun, stateOf_ok] at hcalm hinv hkept ⊢
        obtain ⟨q', hincidents, hfollows'⟩ := forM_requestIncidents hfollows hinv hkept hcalm
        rw [serveClient_of_answered hat hstream hrun, hincidents]
        exact .ok hfollows'
      | error fault c =>
        simp only [hrun, stateOf_error] at hcalm hinv hkept ⊢
        obtain ⟨q', hincidents, -⟩ := forM_requestIncidents hfollows hinv hkept
          fun i hi => hcalm i (List.mem_append_left _ hi)
        obtain ⟨p', hfault⟩ := serveClient_of_fault hat hstream hrun
        rw [hfault, forM_append_apply, bind_of_ok hincidents]
        exact .faulted rfl

lemma seen_acceptAt (waiting : List (ℕ × Except CString Client)) (sock : ℕ) :
    Seen (acceptAt w.heap (programHandlers w) server waiting sock)
      (socketIncidents w server waiting sock) := by
  intro p q hfollows hcalm
  rw [socketIncidents] at hcalm ⊢
  rw [acceptAt]
  cases haccepted : accepted (server.socketMax + 1) waiting sock with
  | none => exact .ok hfollows
  | some outcome =>
    cases outcome with
    | error error => exact .exited rfl
    | ok client =>
      simp only [haccepted] at hcalm
      exact seen_serveClient client p q hfollows hcalm

lemma seen_acceptLoop (waiting : List (ℕ × Except CString Client)) (sockets : List ℕ) :
    Seen (acceptLoop w.heap (programHandlers w) server waiting sockets)
      (loopIncidents w server waiting sockets) := by
  induction sockets with
  | nil => exact seen_nothing fun p => ⟨p, rfl, rfl⟩
  | cons sock sockets ih => exact (seen_acceptAt waiting sock).bind ih

lemma seen_redhttpServerRun (select : Select) :
    Seen (redhttpServerRun w.heap (programHandlers w) server select)
      (roundIncidents w server select) := by
  intro p q hfollows hcalm
  rw [roundIncidents] at hcalm ⊢
  rw [redhttpServerRun, bind_apply, fdSetAll_eq]
  by_cases hroom : ∀ sock ∈ server.sockets, sock < fdSetsize
  · simp only [if_pos hroom] at hcalm ⊢
    cases select with
    | interrupted => exact .ok hfollows
    | failed error => exact .exited rfl
    | ready waiting => exact seen_acceptLoop waiting server.sockets p q hfollows hcalm
  · simp only [if_neg hroom]
    exact .faulted rfl

/-- As long as no message is fatal, the loop of `main` comes to the end that the rounds of the
server come to. -/
theorem serverRounds_endsLike {rounds : List Select} {p : Process (App σ)} {q : Program}
    (h : Follows p.app q)
    (hcalm : ∀ round ∈ incidentsOf w server rounds p, ∀ i ∈ round, i.stops = false) :
    EndsLike false (serverRounds w.heap (programHandlers w) server rounds p)
      (Program.serveRounds (incidentsOf w server rounds p) q) := by
  induction rounds generalizing p q with
  | nil =>
    have hgoes : Program.serveRounds [] q = .ok false q := by
      simp [Program.serveRounds, bind_apply, h.running]
    rw [incidentsOf, hgoes]
    exact .ok h
  | cons select rounds ih =>
    rw [incidentsOf] at hcalm ⊢
    have hcounted : Follows p.app { q with rounds := q.rounds + 1 } := { h with }
    have hseen : Seen (redhttpServerRun w.heap (programHandlers w) server select)
        (roundIncidents w server select) := seen_redhttpServerRun select
    have hround := hseen p _ hcounted (hcalm _ (by simp))
    rw [serverRounds, bind_apply, Program.serveRounds, bind_of_ok (get_apply _), if_pos h.running,
      bind_apply, Program.serveRound, bind_of_ok (modify_apply _ _)]
    cases hrun : redhttpServerRun w.heap (programHandlers w) server select p with
    | ok u p' =>
      have hbehind : incidentsBehind (redhttpServerRun w.heap (programHandlers w) server select)
          (incidentsOf w server rounds) p = incidentsOf w server rounds p' := by
        rw [incidentsBehind, hrun]
      rw [hrun] at hround
      rw [hbehind] at hcalm ⊢
      generalize (roundIncidents w server select p).forM Program.incident _ = first at hround ⊢
      cases hround with
      | ok hfollows => exact ih hfollows fun round hr => hcalm round (List.mem_cons_of_mem _ hr)
    | error e p' =>
      rw [hrun] at hround
      generalize (roundIncidents w server select p).forM Program.incident _ = first at hround ⊢
      cases hround with
      | exited hended => exact .exited hended
      | faulted hended => exact .faulted hended

end Rounds

end RedStore.Service
