/-
The program runs: from its sockets to its answers.

`serveAll` says what the service does with connections that come one after the other.  The
program meets them at its sockets, in rounds; what it does is what `serveAll` does with the
clients of the rounds, those of a round in the order of the sockets.
-/
import RedStore.RedHttp.Rounds
import RedStore.Service.MemoryWorld
import RedStore.Service.Serving

namespace RedStore.Service
open CLib RedHttp

variable {T R σ : Type} {w : World T R σ}

/-! ### The clients of the rounds -/

/-- The connection that a client makes, if it is not turned away. -/
def arrivalOf (client : Client) : Option Arrival :=
  client.answeredAt.map fun serverAddr =>
    { serverAddr := serverAddr.1, serverPort := serverAddr.2, now := client.now,
      input := client.input }

/-- The connection that waits at a socket. -/
def arrivalAt (waiting : List (ℕ × Except CString Client)) (sock : ℕ) : Option Arrival :=
  (waiting.lookup sock).bind fun client => client.toOption.bind arrivalOf

/-- The connections of a round, in the order of the sockets. -/
def arrivalsOf (sockets : List ℕ) : Select → List Arrival
  | .ready waiting => sockets.filterMap (arrivalAt waiting)
  | _ => []

/-- `select` and `accept` work in a round, and a client that is not turned away gets a stream. -/
def RoundWorks (sockets : List ℕ) : Select → Prop
  | .interrupted => True
  | .failed _ => False
  | .ready waiting => ∀ sock ∈ sockets, ∀ outcome ∈ waiting.lookup sock,
    ∃ client, outcome = .ok client ∧ (client.answeredAt.isSome = true → client.stream = true)

/-- The handlers of the program. -/
def programHandlers (w : World T R σ) (now : Option Tm) : List (Handler (App σ)) :=
  redstoreHandlers (w.at now)

/-! ### Programs that serve -/

/-- A program does what `serveAll` does with some connections. -/
structure AnswersAll (w : World T R σ) (x : ProcessM (App σ) Unit) (arrivals : List Arrival) :
    Prop where
  served : ∀ p {app outputs}, serveAll w p.app arrivals = some (app, outputs) →
    ∃ p', x p = .ok () p' ∧ p'.app = app ∧ p'.outputs = p.outputs ++ outputs
  failed : ∀ p, serveAll w p.app arrivals = none → ∃ e p', x p = .error e p'

section AnswersAll

variable {x y : ProcessM (App σ) Unit} {arrivals arrivals' : List Arrival} {server : Server}

lemma serveAll_append (app : App σ) (arrivals arrivals' : List Arrival) :
    serveAll w app (arrivals ++ arrivals') = (serveAll w app arrivals).bind fun done =>
      (serveAll w done.1 arrivals').map fun behind => (behind.1, done.2 ++ behind.2) := by
  induction arrivals generalizing app with
  | nil => simp [serveAll]
  | cons a arrivals ih =>
    rw [List.cons_append, serveAll, serveAll]
    cases serve w app a with
    | none => rfl
    | some first =>
      obtain ⟨app₁, output⟩ := first
      simp only [ih, Option.map_bind, Option.bind_map, Function.comp_def, Option.map_map,
        List.cons_append]

/-- A program that leaves alone what the clients see serves nobody. -/
lemma answersAll_nothing (h : ∀ p, ∃ p', x p = .ok () p' ∧ p'.app = p.app ∧ p'.outputs = p.outputs) :
    AnswersAll w x [] where
  served p app outputs hserve := by
    obtain ⟨rfl, rfl⟩ := Prod.mk.inj (Option.some.inj hserve)
    simpa using h p
  failed p hserve := by cases hserve

lemma AnswersAll.bind (hx : AnswersAll w x arrivals) (hy : AnswersAll w y arrivals') :
    AnswersAll w (x >>= fun _ => y) (arrivals ++ arrivals') where
  served p app outputs hserve := by
    rw [serveAll_append, Option.bind_eq_some_iff] at hserve
    obtain ⟨⟨app₁, outputs₁⟩, hfirst, hrest⟩ := hserve
    obtain ⟨⟨app₂, outputs₂⟩, hbehind, heq⟩ := Option.map_eq_some_iff.mp hrest
    obtain ⟨rfl, rfl⟩ := Prod.mk.inj heq
    obtain ⟨p₁, hrun, rfl, houtputs⟩ := hx.served p hfirst
    obtain ⟨p₂, hrun', rfl, houtputs'⟩ := hy.served p₁ hbehind
    exact ⟨p₂, by rw [bind_of_ok hrun, hrun'], rfl, by rw [houtputs', houtputs, List.append_assoc]⟩
  failed p hserve := by
    rw [serveAll_append, Option.bind_eq_none_iff] at hserve
    cases hfirst : serveAll w p.app arrivals with
    | none =>
      obtain ⟨e, p', hrun⟩ := hx.failed p hfirst
      exact ⟨e, p', bind_of_error hrun _⟩
    | some done =>
      obtain ⟨p₁, hrun, happ, -⟩ := hx.served p hfirst
      have hrest := Option.map_eq_none_iff.mp (hserve done hfirst)
      obtain ⟨e, p', hrun'⟩ := hy.failed p₁ (by rw [happ]; exact hrest)
      exact ⟨e, p', by rw [bind_of_ok hrun, hrun']⟩

/-- What has been served can be read off how the program ends. -/
lemma AnswersAll.ok_iff (h : AnswersAll w x arrivals) {p : Process (App σ)} {app : App σ}
    {outputs : List (List UInt8)} :
    (∃ p', x p = .ok () p' ∧ p'.app = app ∧ p'.outputs = p.outputs ++ outputs) ↔
      serveAll w p.app arrivals = some (app, outputs) := by
  constructor
  · rintro ⟨p', hrun, rfl, houtputs⟩
    cases hserve : serveAll w p.app arrivals with
    | none =>
      obtain ⟨e, p₁, hfail⟩ := h.failed p hserve
      cases hfail.symm.trans hrun
    | some done =>
      obtain ⟨p₁, hserved, happ, houtputs₁⟩ := h.served p hserve
      obtain ⟨-, rfl⟩ := EStateM.Result.ok.inj (hserved.symm.trans hrun)
      rw [happ, ← List.append_cancel_left (houtputs₁.symm.trans houtputs)]
  · exact h.served p

/-! ### The rounds -/

lemma answersAll_serveClient {client : Client} (hsignature : server.signature = some serverSignature)
    (hstream : client.answeredAt.isSome = true → client.stream = true) :
    AnswersAll w (serveClient w.heap (programHandlers w) server client)
      (arrivalOf client).toList := by
  cases hat : client.answeredAt with
  | none =>
    have hnobody : (arrivalOf client).toList = [] := by rw [arrivalOf, hat]; rfl
    rw [hnobody]
    refine answersAll_nothing fun p => ?_
    obtain ⟨said, hrun⟩ := @serveClient_of_turnedAway _ w.heap (programHandlers w) server _ p hat
    exact ⟨_, hrun, rfl, rfl⟩
  | some serverAddr =>
    have hopened : client.stream = true := hstream (by rw [hat]; rfl)
    set a : Arrival := { serverAddr := serverAddr.1, serverPort := serverAddr.2, now := client.now,
                         input := client.input } with ha
    have harrival : (arrivalOf client).toList = [a] := by
      rw [arrivalOf, hat, Option.map_some, Option.toList_some]
    have hrequest : client.request server serverAddr = a.request := by
      rw [Client.request, hsignature, Arrival.request]
    have hone : ∀ app, serveAll w app [a] =
        (serve w app a).map fun done => (done.1, [done.2]) := by
      intro app
      rw [serveAll]
      cases serve w app a <;> rfl
    rw [harrival]
    constructor
    · intro p app outputs hserve
      rw [hone, Option.map_eq_some_iff] at hserve
      obtain ⟨⟨app₁, output⟩, hserve, heq⟩ := hserve
      obtain ⟨rfl, rfl⟩ := Prod.mk.inj heq
      obtain ⟨sent, c, hrun, rfl, rfl⟩ := serve_eq_some_iff.mp hserve
      rw [← hrequest] at hrun
      exact ⟨_, serveClient_of_answered hat hopened hrun, rfl, rfl⟩
    · intro p hserve
      rw [hone, Option.map_eq_none_iff] at hserve
      cases hrun : redhttpServerHandleRequest w.heap client.now (programHandlers w client.now)
          ⟨client.request server serverAddr, p.app⟩ with
      | ok sent c =>
        rw [hrequest] at hrun
        have hsome : serve w p.app a = some (c.app, c.request.socket.output) :=
          serve_eq_some_iff.mpr ⟨sent, c, hrun, rfl, rfl⟩
        rw [hserve] at hsome
        cases hsome
      | error fault c =>
        obtain ⟨p', hfault⟩ := serveClient_of_fault hat hopened hrun
        exact ⟨_, p', hfault⟩

/-- A socket of the server is below `nfds`. -/
lemma answersAll_acceptAt {waiting : List (ℕ × Except CString Client)} {sock : ℕ}
    (hsignature : server.signature = some serverSignature) (hbound : (sock : ℤ) ≤ server.socketMax)
    (hworks : ∀ outcome ∈ waiting.lookup sock, ∃ client, outcome = .ok client ∧
      (client.answeredAt.isSome = true → client.stream = true)) :
    AnswersAll w (acceptAt w.heap (programHandlers w) server waiting sock)
      (arrivalAt waiting sock).toList := by
  have hbelow : (sock : ℤ) < server.socketMax + 1 := by omega
  have haccepted : accepted (server.socketMax + 1) waiting sock = waiting.lookup sock :=
    if_pos hbelow
  rw [acceptAt, haccepted, arrivalAt]
  cases hlookup : waiting.lookup sock with
  | none => exact answersAll_nothing fun p => ⟨p, rfl, rfl, rfl⟩
  | some outcome =>
    obtain ⟨client, rfl, hstream⟩ := hworks outcome hlookup
    exact answersAll_serveClient hsignature hstream

lemma answersAll_acceptLoop {waiting : List (ℕ × Except CString Client)} {sockets : List ℕ}
    (hsignature : server.signature = some serverSignature)
    (hbound : ∀ sock ∈ sockets, (sock : ℤ) ≤ server.socketMax)
    (hworks : RoundWorks sockets (.ready waiting)) :
    AnswersAll w (acceptLoop w.heap (programHandlers w) server waiting sockets)
      (sockets.filterMap (arrivalAt waiting)) := by
  induction sockets with
  | nil => exact answersAll_nothing fun p => ⟨p, rfl, rfl, rfl⟩
  | cons sock sockets ih =>
    have hrest := ih (fun s hs => hbound s (by simp [hs])) fun s hs => hworks s (by simp [hs])
    have hsplit : (sock :: sockets).filterMap (arrivalAt waiting) =
        (arrivalAt waiting sock).toList ++ sockets.filterMap (arrivalAt waiting) := by
      rw [List.filterMap_cons]
      cases arrivalAt waiting sock <;> rfl
    rw [hsplit]
    exact (answersAll_acceptAt hsignature (hbound sock (by simp)) (hworks sock (by simp))).bind hrest

lemma answersAll_redhttpServerRun {select : Select}
    (hsignature : server.signature = some serverSignature)
    (hbound : ∀ sock ∈ server.sockets, (sock : ℤ) ≤ server.socketMax)
    (hroom : ∀ sock ∈ server.sockets, sock < fdSetsize)
    (hworks : RoundWorks server.sockets select) :
    AnswersAll w (redhttpServerRun w.heap (programHandlers w) server select)
      (arrivalsOf server.sockets select) := by
  have hsets : AnswersAll w (fdSetAll server.sockets) [] := answersAll_nothing fun p =>
    ⟨p, by rw [fdSetAll_eq, if_pos hroom], rfl, rfl⟩
  rw [← List.nil_append (arrivalsOf server.sockets select)]
  refine hsets.bind ?_
  cases select with
  | interrupted => exact answersAll_nothing fun p => ⟨p, rfl, rfl, rfl⟩
  | failed error => exact hworks.elim
  | ready waiting => exact answersAll_acceptLoop hsignature hbound hworks

lemma answersAll_serverRounds {rounds : List Select}
    (hsignature : server.signature = some serverSignature)
    (hbound : ∀ sock ∈ server.sockets, (sock : ℤ) ≤ server.socketMax)
    (hroom : ∀ sock ∈ server.sockets, sock < fdSetsize)
    (hworks : ∀ select ∈ rounds, RoundWorks server.sockets select) :
    AnswersAll w (serverRounds w.heap (programHandlers w) server rounds)
      (rounds.flatMap (arrivalsOf server.sockets)) := by
  induction rounds with
  | nil => exact answersAll_nothing fun p => ⟨p, rfl, rfl, rfl⟩
  | cons select rounds ih =>
    exact (answersAll_redhttpServerRun hsignature hbound hroom (hworks select (by simp))).bind
      (ih fun s hs => hworks s (by simp [hs]))

end AnswersAll

/-! ### The life of the program -/

section Life

variable {server : Server} {calls : List (Except CString (List Address))} {results : List ℤ}
  {rounds : List Select} {p p₁ : Process (App σ)}

lemma answersAll_closeAll (sockets : List ℕ) :
    AnswersAll w (closeAll sockets : ProcessM (App σ) Unit) [] := by
  induction sockets with
  | nil => exact answersAll_nothing fun p => ⟨p, rfl, rfl, rfl⟩
  | cons sock sockets ih =>
    have hclose : AnswersAll w (closeDescriptor sock : ProcessM (App σ) Unit) [] :=
      answersAll_nothing fun p => ⟨_, rfl, rfl, rfl⟩
    exact hclose.bind ih

/-- From a process with few descriptors, the program answers the clients of all its rounds as if
their connections had come one after the other. -/
theorem serverLife_serveAll (hcareful : p.Careful)
    (hroom : p.descriptors.own.card + p.descriptors.library.card +
      (calls.flatMap foundAddresses).countP Address.opens ≤ fdSetsize)
    (hlisten : listenCalls calls (signedServer (some serverSignature)) p =
      .ok (results, server) p₁)
    (hworks : ∀ select ∈ rounds, RoundWorks server.sockets select) {app : App σ}
    {outputs : List (List UInt8)} :
    (∃ p', serverLife w.heap (programHandlers w) (some serverSignature) calls rounds p =
        .ok () p' ∧ p'.app = app ∧ p'.outputs = p.outputs ++ outputs) ↔
      serveAll w p.app (rounds.flatMap (arrivalsOf server.sockets)) = some (app, outputs) := by
  obtain ⟨results', server', p₁', hlisten', h, hcount, hlow, hsignature, -⟩ :=
    listenCalls_listening (some serverSignature) calls p hcareful
  obtain ⟨hserver, rfl⟩ := EStateM.Result.ok.inj (hlisten'.symm.trans hlisten)
  obtain ⟨rfl, rfl⟩ := Prod.mk.inj hserver
  have hsockets : ∀ sock ∈ server'.sockets, sock < fdSetsize := by
    intro sock hsock
    have := hlow sock hsock
    omega
  have hserves : AnswersAll w (serverRounds w.heap (programHandlers w) server' rounds >>= fun _ =>
      redhttpServerFree server') (rounds.flatMap (arrivalsOf server'.sockets)) := by
    rw [← List.append_nil (rounds.flatMap _)]
    exact (answersAll_serverRounds hsignature h.bound hsockets hworks).bind
      (answersAll_closeAll server'.sockets)
  have hkept := keeps_listenCalls calls (signedServer (some serverSignature)) p
  rw [hlisten, stateOf_ok, Process.served, Process.served, Prod.mk.injEq] at hkept
  have hiff := @AnswersAll.ok_iff _ _ _ _ _ _ hserves p₁' app outputs
  rw [hkept.1, hkept.2] at hiff
  rw [← hiff, serverLife_eq hlisten]

end Life

/-! ### In memory -/

lemma twoClients_work (sockets : List ℕ) : ∀ select ∈ twoClients, RoundWorks sockets select := by
  have hone : ∀ (client : Client), (client.answeredAt.isSome = true → client.stream = true) →
      ∀ sock, ∀ outcome ∈ List.lookup sock [(3, (Except.ok client : Except CString Client))],
        ∃ client, outcome = .ok client ∧
          (client.answeredAt.isSome = true → client.stream = true) := by
    intro client hclient sock outcome houtcome
    rw [List.lookup_cons] at houtcome
    cases hsock : sock == 3 <;> simp [hsock] at houtcome
    exact ⟨client, houtcome.symm, hclient⟩
  intro select hselect
  simp only [twoClients, List.mem_cons, List.not_mem_nil, or_false] at hselect
  rcases hselect with rfl | rfl | rfl
  · trivial
  · exact fun sock _ => hone _ (fun _ => rfl) sock
  · exact fun sock _ => hone _ (fun h => absurd h (by decide)) sock

theorem serverLife_serveAll_two : ∃ results server p₁ app outputs,
    listenCalls [.ok twoAddresses] (signedServer (some serverSignature))
        (startedProcess occupiedApp) = .ok (results, server) p₁ ∧
      serveAll memoryWorld occupiedApp (twoClients.flatMap (arrivalsOf server.sockets)) =
        some (app, outputs) := by
  have hends : endsWell (serverLife memoryWorld.heap (programHandlers memoryWorld)
      (some serverSignature) [.ok twoAddresses] twoClients (startedProcess occupiedApp)) = true := by
    decide +kernel
  obtain ⟨⟨⟩, p', hlife⟩ := endsWell_iff.mp hends
  obtain ⟨results, server, p₁, hlisten, -⟩ := listenCalls_listening (some serverSignature)
    [.ok twoAddresses] (startedProcess occupiedApp) (startedProcess_careful occupiedApp)
  refine ⟨results, server, p₁, p'.app, p'.outputs, hlisten, ?_⟩
  exact (serverLife_serveAll (startedProcess_careful occupiedApp) (by decide) hlisten
    (twoClients_work server.sockets)).mp ⟨p', hlife, rfl, rfl⟩

end RedStore.Service
