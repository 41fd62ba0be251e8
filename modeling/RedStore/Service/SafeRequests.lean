/-
Requests that are not to change the store, over any run of the service.

Two connections with the same request and the same storage stay beside each other through all
handlers that only read, and the storage stays what it is.  What such a request is answered
depends on the storage alone, the counters of the description page apart.  So in a run of such
requests each is answered as if it had come first.
-/
import RedStore.Service.MemoryWorld
import RedStore.Service.ReadingRules
import RedStore.Service.Routing
import RedStore.Service.Serving

namespace RedStore.Service
open CLib RedHttp

variable {T R σ : Type}

/-! ### Which requests these are -/

/-- The routes whose handlers change the store. -/
def updateTable : List (String × String) :=
  [("PUT", "/data*"), ("POST", "/data*"), ("DELETE", "/data*"), ("POST", "/insert"),
    ("POST", "/delete"), ("POST", "/load")]

/-- A request that comes to one of them. -/
def Updates (r : Request) : Prop :=
  ∃ entry ∈ updateTable, r.method = some (CString.lit entry.1) ∧
    r.path.any (fun path => pathMatches (CString.lit entry.2).bytes path.bytes) = true

instance (r : Request) : Decidable (Updates r) := inferInstanceAs (Decidable (∃ entry ∈ _, _))

/-- A request that comes to the description of the service, which shows the counters. -/
def ShowsCounters (r : Request) : Prop :=
  r.method = some (CString.lit "GET") ∧
    (r.path = some (CString.lit "/description") ∨
      (r.path = some (CString.lit "/sparql") ∨ r.path = some (CString.lit "/sparql/")) ∧
        r.getArgument (CString.lit "query") = none)

/-- The calls of Redland that read leave the storage as it is. -/
def ReadsKeep (w : World T R σ) : Prop :=
  ∀ {α : Type} {f : σ → Answer σ α}, ReadingCall w f → ∀ s, (f s).storage = s

/-! ### Two connections beside each other -/

/-- What decides on the handler of a request. -/
structure Routed where
  method : Option CString
  path : Option CString
  arguments : List Header

def routed (r : Request) : Routed := ⟨r.method, r.path, r.arguments⟩

/-- Two connections with one request and one storage; if the counters are shown they are the
same, too. -/
structure Beside (shown : Prop) (side : Routed) (s : σ) (c d : Conn (App σ)) : Prop where
  request : d.request = c.request
  side : routed c.request = side
  storage : c.app.storage = s
  storage' : d.app.storage = s
  buffer : d.app.errorBuffer = c.app.errorBuffer
  counters : shown → d.app.requestCount = c.app.requestCount ∧
    d.app.queryCount = c.app.queryCount ∧ d.app.importCount = c.app.importCount

/-- The buffer after some messages depends on the buffer before. -/
lemma errorBuffer_afterLogs (app : App σ) (logs : List LogMessage) :
    (app.afterLogs logs).errorBuffer = logs.foldl bufferAfter app.errorBuffer := by
  induction logs generalizing app with
  | nil => rfl
  | cons m logs ih => exact ih (app.afterLog m)

/-- Messages leave the counters alone. -/
lemma counters_afterLogs (app : App σ) (logs : List LogMessage) :
    (app.afterLogs logs).requestCount = app.requestCount ∧
      (app.afterLogs logs).queryCount = app.queryCount ∧
      (app.afterLogs logs).importCount = app.importCount := by
  induction logs generalizing app with
  | nil => exact ⟨rfl, rfl, rfl⟩
  | cons m logs ih => exact ih (app.afterLog m)

section Beside

variable {w : World T R σ} {shown : Prop} {side : Routed} {s : σ} {c d : Conn (App σ)}

lemma Beside.called {α : Type} (h : Beside shown side s c d) {answer : Answer σ α}
    (hkeep : answer.storage = s) :
    Beside shown side s (Service.called c answer) (Service.called d answer) where
  request := h.request
  side := h.side
  storage := by rw [called_storage, hkeep]
  storage' := by rw [called_storage, hkeep]
  buffer := by
    change (App.afterLogs _ _).errorBuffer = (App.afterLogs _ _).errorBuffer
    rw [errorBuffer_afterLogs, errorBuffer_afterLogs]
    exact congrArg (answer.logs.foldl bufferAfter) h.buffer
  counters hshown := by
    obtain ⟨hc₁, hc₂, hc₃⟩ := counters_afterLogs { c.app with storage := answer.storage } answer.logs
    obtain ⟨hd₁, hd₂, hd₃⟩ := counters_afterLogs { d.app with storage := answer.storage } answer.logs
    obtain ⟨h₁, h₂, h₃⟩ := h.counters hshown
    exact ⟨hd₁.trans (h₁.trans hc₁.symm), hd₂.trans (h₂.trans hc₂.symm),
      hd₃.trans (h₃.trans hc₃.symm)⟩

/-- A program over the request alone agrees with itself, if it does not change the route. -/
lemma agree_onRequest {α : Type} {x : RequestM α} (hx : Keeps routed x) :
    Agree (Beside shown side s) (onRequest x) (onRequest x) := by
  intro c d h
  have hside := hx c.request
  simp only [onRequest, h.request]
  cases hrun : x c.request with
  | ok a r =>
    rw [hrun] at hside
    exact ⟨rfl, rfl, hside.trans h.side, h.storage, h.storage', h.buffer, h.counters⟩
  | error e r =>
    rw [hrun] at hside
    exact ⟨rfl, rfl, hside.trans h.side, h.storage, h.storage', h.buffer, h.counters⟩

lemma keeps_routed_send (now : Option Tm) (response : Response) :
    Keeps routed (redhttpResponseSend now response) := by
  intro r
  rw [redhttpResponseSend_eq]
  split <;> rfl

/-- Two connections beside each other see the same. -/
lemma besideRules (hkeep : ReadsKeep w) : PageRules w (Beside shown side s) where
  arguments h := by rw [h.request]
  accept h := by rw [h.request]
  call hf c d h := by
    rw [call_apply, call_apply, h.storage, h.storage']
    exact ⟨rfl, h.called (hkeep hf s)⟩
  log m := agree_modify fun c d h =>
    ⟨h.request, h.side, h.storage, h.storage', congrArg (bufferAfter · m) h.buffer, h.counters⟩
  inspect c d h := ⟨h.buffer.symm, h.request, h.side, h.storage, h.storage', h.buffer, h.counters⟩
  count := agree_modify fun c d h =>
    ⟨h.request, h.side, h.storage, h.storage', h.buffer, fun hshown => by
      obtain ⟨h₁, h₂, h₃⟩ := h.counters hshown
      exact ⟨h₁, by simp only [h₂], h₃⟩⟩
  send response := agree_onRequest (keeps_routed_send w.now response)
  fwrite bytes := agree_onRequest (keeps_modify fun r => rfl)
  request h := h.request
  url := agree_onRequest fun r => by
    rw [redhttpRequestGetUrl_apply]
    rfl
  host := agree_onRequest fun r => by
    rw [redhttpRequestGetHost_apply]
    rfl

/-! ### The dispatch -/

/-- The search of a table agrees with itself, if the handlers do that are for the requests. -/
lemma agree_tryRoutes {rel : Conn (App σ) → Conn (App σ) → Prop}
    {handlers : List (Handler (App σ))}
    (hmatch : ∀ it : Handler (App σ), Agree rel (onRequest (matchRoute it)) (onRequest (matchRoute it)))
    (h : ∀ it ∈ handlers, Agree rel it.func it.func ∨
      ∀ c d, rel c d → matchRoute it c.request = .ok false c.request ∧
        matchRoute it d.request = .ok false d.request) :
    Agree rel (tryRoutes handlers) (tryRoutes handlers) := by
  induction handlers with
  | nil => exact agree_pure none
  | cons it handlers ih =>
    have hrest := ih fun it hmem => h it (by simp [hmem])
    rcases h it (by simp) with hagree | hskip
    · refine agree_bind (hmatch it) fun matched => agree_ite (agree_bind hagree fun answer => ?_) hrest
      cases answer with
      | none => exact hrest
      | some response => exact agree_pure _
    · intro c d hrel
      obtain ⟨hc, hd⟩ := hskip c d hrel
      rw [tryRoutes_of_not_matching hc, tryRoutes_of_not_matching hd]
      exact hrest c d hrel

/-- A request that does not update is not for a handler that does. -/
lemma mismatch_of_not_updates {r : Request} {method path : CString}
    (hmethod : r.method = some method) (hpath : r.path = some path) (h : ¬ Updates r)
    {entry : String × String} (hentry : entry ∈ updateTable)
    (func : ServiceM σ (Option Response)) :
    routeMismatch method path (route (some entry.1) (some entry.2) func) = true := by
  have hne : ∀ entry ∈ updateTable, (CString.lit entry.2).bytes ≠ [] := by decide
  simp only [routeMismatch, route, Option.map_some, Bool.or_eq_true, bne_iff_ne,
    decide_eq_true_eq, or_iff_not_imp_left, not_not]
  intro heq
  refine matchPath_of_not_matches (hne entry hentry) ?_
  by_contra hmatches
  refine h ⟨entry, hentry, heq ▸ hmethod, ?_⟩
  rw [hpath]
  simpa using hmatches

/-- What may come to the description has the path for it and no query. -/
lemma description_agrees (hkeep : ReadsKeep w) (hshown : shown) :
    Agree (Beside shown side s) (handleDescriptionGet w) (handleDescriptionGet w) := by
  have hpage : ∀ {c d : Conn (App σ)}, Beside shown side s c d →
      descriptionPage w d.app = descriptionPage w c.app := by
    intro c d h
    obtain ⟨h₁, h₂, h₃⟩ := h.counters hshown
    funext contexts
    simp only [descriptionPage, h.storage, h.storage', h₁, h₂, h₃]
  exact (besideRules hkeep).handleDescriptionGet hpage fun h => h.storage'.trans h.storage.symm

lemma keeps_routed_matchRoute (it : Handler (App σ)) : Keeps routed (matchRoute it) :=
  keeps_matchRoute (fun _ _ => rfl) it

/-- The handlers agree that are for a request that does not update. -/
lemma handlers_agree (hkeep : ReadsKeep w) {r : Request} {method path : CString}
    (hmethod : r.method = some method) (hpath : r.path = some path) (hupdates : ¬ Updates r)
    (hcounters : ShowsCounters r → shown) :
    ∀ it ∈ requestHandlers w,
      Agree (Beside shown (routed r) s) it.func it.func ∨
        ∀ c d, Beside shown (routed r) s c d → matchRoute it c.request = .ok false c.request ∧
          matchRoute it d.request = .ok false d.request := by
  have h : PageRules w (Beside shown (routed r) s) := besideRules hkeep
  have hrouted : ∀ c d, Beside shown (routed r) s c d →
      c.request.method = some method ∧ c.request.path = some path := fun c d hcd =>
    ⟨(congrArg Routed.method hcd.side).trans hmethod, (congrArg Routed.path hcd.side).trans hpath⟩
  have hpassed : ∀ it : Handler (App σ), routeMismatch method path it = true →
      ∀ c d, Beside shown (routed r) s c d → matchRoute it c.request = .ok false c.request ∧
        matchRoute it d.request = .ok false d.request := by
    intro it hit c d hcd
    have hskip := matchRoute_of_mismatch (hrouted c d hcd).1 (hrouted c d hcd).2 hit
    exact ⟨hskip, by rw [hcd.request]; exact hskip⟩
  have hliteral : ∀ m p : String, (CString.lit p).bytes.getLast? ≠ some (ch '*') ∧
      (CString.lit p).bytes ≠ [] → ∀ func : ServiceM σ (Option Response),
      method ≠ CString.lit m ∨ path ≠ CString.lit p →
      routeMismatch method path (route (some m) (some p) func) = true := by
    rintro m p ⟨hstar, hnil⟩ func hne
    simp only [routeMismatch, route, Option.map_some, Bool.or_eq_true, bne_iff_ne,
      decide_eq_true_eq]
    rcases hne with hne | hne
    · exact Or.inl hne.symm
    · rw [List.getLast?_eq_some_getLast hnil] at hstar
      refine Or.inr (matchPath_of_literal (List.getLast?_eq_some_getLast hnil) ?_ ?_)
      · exact fun heq => hstar (congrArg some heq)
      · exact fun heq => hne (CString.ext heq.symm)
  have hupdate : ∀ (entry : String × String) (_ : entry ∈ updateTable)
      (func : ServiceM σ (Option Response)), ∀ c d, Beside shown (routed r) s c d →
      matchRoute (route (some entry.1) (some entry.2) func) c.request = .ok false c.request ∧
        matchRoute (route (some entry.1) (some entry.2) func) d.request = .ok false d.request :=
    fun _ hentry func => hpassed _ (mismatch_of_not_updates hmethod hpath hupdates hentry func)
  have hsparql : ∀ m, ∀ p ∈ ["/sparql", "/sparql/"],
      Agree (Beside shown (routed r) s) (handleSparql w) (handleSparql w) ∨
        ∀ c d, Beside shown (routed r) s c d →
          matchRoute (route (some m) (some p) (handleSparql w)) c.request = .ok false c.request ∧
          matchRoute (route (some m) (some p) (handleSparql w)) d.request = .ok false d.request := by
    have hnoStar : ∀ p ∈ ["/sparql", "/sparql/"], (CString.lit p).bytes.getLast? ≠ some (ch '*') ∧
        (CString.lit p).bytes ≠ [] := by decide
    intro m p hp
    by_cases heq : path = CString.lit p
    · refine Or.inl (h.handleSparql fun {c d} hcd hget hquery => description_agrees hkeep ?_)
      have hside : routed c.request = routed r := hcd.side
      have harguments : c.request.arguments = r.arguments := congrArg Routed.arguments hside
      refine hcounters ⟨(congrArg Routed.method hside).symm.trans hget, Or.inr ⟨?_, ?_⟩⟩
      · rw [hpath, heq]
        simp only [List.mem_cons, List.not_mem_nil, or_false] at hp
        rcases hp with rfl | rfl <;> simp
      · rwa [Request.getArgument, ← harguments]
    · exact Or.inr (hpassed _ (hliteral m p (hnoStar p hp) _ (Or.inr heq)))
  have hdescription : Agree (Beside shown (routed r) s) (handleDescriptionGet w)
        (handleDescriptionGet w) ∨
      ∀ c d, Beside shown (routed r) s c d →
        matchRoute (route (some "GET") (some "/description") (handleDescriptionGet w)) c.request =
          .ok false c.request ∧
        matchRoute (route (some "GET") (some "/description") (handleDescriptionGet w)) d.request =
          .ok false d.request := by
    by_cases heq : method = CString.lit "GET" ∧ path = CString.lit "/description"
    · refine Or.inl (description_agrees hkeep (hcounters ⟨?_, Or.inl ?_⟩))
      · rw [hmethod, heq.1]
      · rw [hpath, heq.2]
    · rw [Classical.not_and_iff_not_or_not] at heq
      exact Or.inr (hpassed _ (hliteral _ _ (by decide) _ heq))
  have hslash : Agree (Beside shown (routed r) s) (removeTrailingSlash w)
      (removeTrailingSlash w) := by
    refine agree_get_bind fun c d hcd => ?_
    rw [hcd.request, (hrouted c d hcd).2]
    exact agree_ofExcept _
  simp only [requestHandlers, redstoreHandlers, List.drop_succ_cons, List.drop_zero,
    List.forall_mem_cons, List.not_mem_nil, false_imp_iff, implies_true, and_true]
  exact ⟨.inl h.handleQuery, hsparql _ _ (by simp), hsparql _ _ (by simp), .inl h.handleQuery,
    hsparql _ _ (by simp), hsparql _ _ (by simp), .inl h.handleDataHead, .inl h.handleDataGet,
    .inr (hupdate ("PUT", "/data*") (by decide) _),
    .inr (hupdate ("POST", "/data*") (by decide) _),
    .inr (hupdate ("DELETE", "/data*") (by decide) _),
    .inl (h.handlePageUpdateForm _), .inr (hupdate ("POST", "/insert") (by decide) _),
    .inl (h.handlePageUpdateForm _), .inr (hupdate ("POST", "/delete") (by decide) _),
    .inl h.handleGraphIndex, .inl (agree_pure _),
    .inr (hupdate ("POST", "/load") (by decide) _), .inl (agree_pure _), hdescription,
    .inl (agree_pure _), .inl (agree_pure _), .inl hslash, .inl (agree_map (h.message _ _))⟩

/-- What two connections have in common before and after a request. -/
structure Together (s : σ) (c d : Conn (App σ)) : Prop where
  request : d.request = c.request
  storage : c.app.storage = s
  storage' : d.app.storage = s

lemma Beside.together (h : Beside shown side s c d) : Together s c d :=
  ⟨h.request, h.storage, h.storage'⟩

lemma agree_answerFallback : Agree (Together s) (answerFallback w.heap (redstoreHandlers w))
    (answerFallback w.heap (redstoreHandlers w)) := by
  refine agree_get_bind fun c d h => agree_get_bind fun c' d' h' => ?_
  rw [h.request, h'.request]
  cases c.request.path with
  | none => exact agree_throw _
  | some path =>
    cases c'.request.method with
    | none => exact agree_throw _
    | some method => exact agree_ofExcept _

/-- A request that does not update is answered alike, and the storage stays what it is. -/
lemma dispatchRequest_together (hkeep : ReadsKeep w) (h : Together s c d)
    (hupdates : ¬ Updates c.request) (hcounters : ShowsCounters c.request → shown)
    (hshown : shown → d.app.requestCount = c.app.requestCount ∧
      d.app.queryCount = c.app.queryCount ∧ d.app.importCount = c.app.importCount) :
    EndAlike (Together s) (dispatchRequest w c) (dispatchRequest w d) := by
  simp only [dispatchRequest, redhttpServerDispatchRequest, bind_apply, get_apply, h.request]
  cases hpath : c.request.path with
  | none => exact ⟨rfl, h⟩
  | some path =>
    cases hmethod : c.request.method with
    | none => exact ⟨rfl, h⟩
    | some method =>
      dsimp only
      split
      · exact agree_ofExcept (R := Together s) _ c d h
      · have hbeside : Beside shown (routed c.request) s (beforeHandlers c) (beforeHandlers d) := by
          refine ⟨h.request, rfl, h.storage, h.storage', rfl, fun hs => ?_⟩
          obtain ⟨h₁, h₂, h₃⟩ := hshown hs
          exact ⟨congrArg (fun n => (n + 1) % longRange) h₁, h₂, h₃⟩
        have hroutes := agree_tryRoutes (fun it => agree_onRequest (keeps_routed_matchRoute it))
          (handlers_agree hkeep hmethod hpath hupdates hcounters) _ _ hbeside
        refine hroutes.bind (fun _ _ hcd => hcd.together) fun answer c' d' hcd => ?_
        cases answer with
        | none => exact agree_answerFallback c' d' hcd.together
        | some response => exact ⟨rfl, hcd.together⟩

/-- So is a request that arrives: the answer is the same, with all that is written. -/
theorem handleRequest_together (shown : Prop) (hkeep : ReadsKeep w) {r : Request}
    {app : App σ} (app' : App σ) (hstorage : app'.storage = app.storage)
    (hupdates : ∀ result r', redhttpRequestRead w.heap r = .ok result r' → ¬ Updates r')
    (hcounters : ∀ result r', redhttpRequestRead w.heap r = .ok result r' →
      ShowsCounters r' → shown)
    (hshown : shown → app'.requestCount = app.requestCount ∧ app'.queryCount = app.queryCount ∧
      app'.importCount = app.importCount) :
    EndAlike (Together app.storage) (handleRequest w ⟨r, app⟩) (handleRequest w ⟨r, app'⟩) := by
  rw [handleRequest, redhttpServerHandleRequest_eq]
  simp only [bind_apply, onRequest]
  cases hread : redhttpRequestRead w.heap r with
  | error e r' => exact ⟨rfl, rfl, rfl, hstorage⟩
  | ok result r' =>
    have hanswer : EndAlike (Together app.storage)
        (answerRequest w.heap (redstoreHandlers w) result ⟨r', app⟩)
        (answerRequest w.heap (redstoreHandlers w) result ⟨r', app'⟩) := by
      have hdispatch := dispatchRequest_together (c := ⟨r', app⟩) (d := ⟨r', app'⟩) hkeep
        ⟨rfl, rfl, hstorage⟩ (hupdates result r' hread) (hcounters result r' hread) hshown
      rw [answerRequest]
      split
      · cases redhttpResponseNewErrorPage w.heap .badRequest [] with
        | none => exact hdispatch
        | some response => exact ⟨rfl, rfl, rfl, hstorage⟩
      · exact hdispatch
    refine hanswer.bind (fun _ _ h => h) fun response c d h => ?_
    cases response with
    | none => exact ⟨rfl, h⟩
    | some response =>
      simp only [sendAnswer, onRequest, h.request]
      cases redhttpResponseSend w.now response c.request with
      | ok sent r'' => exact ⟨rfl, rfl, h.storage, h.storage'⟩
      | error e r'' => exact ⟨rfl, rfl, h.storage, h.storage'⟩

end Beside

/-! ### Runs -/

/-- A connection whose request does not update. -/
def Arrival.Reads (heap : Heap) (a : Arrival) : Prop := ∀ r ∈ a.read heap, ¬ Updates r

/-- A connection whose request does not come to the description. -/
def Arrival.HidesCounters (heap : Heap) (a : Arrival) : Prop :=
  ∀ r ∈ a.read heap, ¬ ShowsCounters r

section Runs

variable {w : World T R σ} {app app' app₁ : App σ} {a : Arrival} {arrivals : List Arrival}
  {output : List UInt8} {outputs : List (List UInt8)}

lemma ReadsKeep.at (hkeep : ReadsKeep w) (now : Option Tm) : ReadsKeep (w.at now) := by
  intro α f hf s
  cases hf with
  | contexts => exact hkeep .contexts s
  | contains graph => exact hkeep (.contains graph) s
  | model => exact hkeep .model s
  | context graph => exact hkeep (.context graph) s
  | serializer name => exact hkeep (.serializer name) s
  | serialize name stream => exact hkeep (.serialize name stream) s
  | query lang queryString => exact hkeep (.query lang queryString) s
  | execute lang queryString => exact hkeep (.execute lang queryString) s
  | formatter results name => exact hkeep (.formatter results name) s
  | write results name => exact hkeep (.write results name) s
  | description triples => exact hkeep (.description triples) s

/-- Such a connection leaves the storage as it is. -/
lemma serve_storage (hkeep : ReadsKeep w) (hreads : a.Reads w.heap)
    (h : serve w app a = some (app', output)) : app'.storage = app.storage := by
  obtain ⟨response, c, hrun, rfl, -⟩ := serve_eq_some_iff.mp h
  have htogether := handleRequest_together True (hkeep.at a.now) app rfl
    (fun result r hr => hreads r (Arrival.read_eq_some_iff.mpr ⟨result, hr⟩))
    (fun _ _ _ _ => trivial) fun _ => ⟨rfl, rfl, rfl⟩
  obtain ⟨d, -, hd⟩ := htogether.ok hrun
  exact hd.storage

/-- What it is answered depends on the storage alone. -/
lemma serve_of_storage (hkeep : ReadsKeep w) (hreads : a.Reads w.heap)
    (hcounters : a.HidesCounters w.heap) (hstorage : app₁.storage = app.storage)
    (h : serve w app a = some (app', output)) : ∃ app₂, serve w app₁ a = some (app₂, output) := by
  obtain ⟨response, c, hrun, rfl, rfl⟩ := serve_eq_some_iff.mp h
  have htogether := handleRequest_together False (hkeep.at a.now) app₁ hstorage
    (fun result r hr => hreads r (Arrival.read_eq_some_iff.mpr ⟨result, hr⟩))
    (fun result r hr => hcounters r (Arrival.read_eq_some_iff.mpr ⟨result, hr⟩)) False.elim
  obtain ⟨d, hd, hcd⟩ := htogether.ok hrun
  exact ⟨d.app, serve_eq_some_iff.mpr ⟨response, d, hd, rfl, by rw [hcd.request]⟩⟩

/-- Over a run of connections that do not update, the storage stays what it is, and each of
them, unless it shows the counters, is answered as if it had come first. -/
theorem serveAll_reads (hkeep : ReadsKeep w) (hreads : ∀ a ∈ arrivals, a.Reads w.heap)
    (h : serveAll w app arrivals = some (app', outputs)) :
    app'.storage = app.storage ∧ List.Forall₂ (fun a output => a.HidesCounters w.heap →
      ∃ app₁, serve w app a = some (app₁, output)) arrivals outputs := by
  have hrun : ∀ (arrivals : List Arrival) (app₁ : App σ) (outputs : List (List UInt8)),
      (∀ a ∈ arrivals, a.Reads w.heap) → app₁.storage = app.storage →
      serveAll w app₁ arrivals = some (app', outputs) →
      app'.storage = app.storage ∧ List.Forall₂ (fun a output => a.HidesCounters w.heap →
        ∃ app₂, serve w app a = some (app₂, output)) arrivals outputs := by
    intro arrivals
    induction arrivals with
    | nil =>
      intro app₁ outputs _ hstorage h
      cases h
      exact ⟨hstorage, .nil⟩
    | cons a arrivals ih =>
      intro app₁ outputs hreads hstorage h
      obtain ⟨app₂, output, rest, hfirst, hrest, rfl⟩ := serveAll_cons_eq_some_iff.mp h
      have ha := hreads a (by simp)
      obtain ⟨hkept, hrest⟩ := ih app₂ rest (fun a hmem => hreads a (by simp [hmem]))
        ((serve_storage hkeep ha hfirst).trans hstorage) hrest
      exact ⟨hkept, .cons (fun hcounters =>
        serve_of_storage hkeep ha hcounters hstorage.symm hfirst) hrest⟩
  exact hrun arrivals app outputs hreads rfl h

end Runs

/-! ### In memory -/

lemma memoryWorld_readsKeep : ReadsKeep memoryWorld := by
  intro α f hf s
  cases hf <;> rfl

/-- A request without headers, as it arrives. -/
def plainArrival (method target : String) : Arrival where
  input := bytesOf method ++ bytesOf " " ++ bytesOf target ++ bytesOf " HTTP/1.0\r\n\r\n"

/-- A look at a graph and a look at the store. -/
def lookups : List Arrival := [plainArrival "HEAD" "/data/x", plainArrival "GET" "/data?default"]

theorem serveAll_reads_lookups : ∃ app' outputs,
    serveAll memoryWorld occupiedApp lookups = some (app', outputs) ∧
      app'.storage = occupiedApp.storage ∧
      List.Forall₂ (fun a output => a.HidesCounters memoryWorld.heap →
        ∃ app₁, serve memoryWorld occupiedApp a = some (app₁, output)) lookups outputs := by
  have hsome : (serveAll memoryWorld occupiedApp lookups).isSome = true := by decide +kernel
  obtain ⟨⟨app', outputs⟩, h⟩ := Option.isSome_iff_exists.mp hsome
  have hreads : ∀ a ∈ lookups, a.Reads memoryWorld.heap := by
    have hnot : ∀ a ∈ lookups, (a.read memoryWorld.heap).all (fun r => ¬ Updates r) = true := by
      decide +kernel
    intro a ha r hr
    have hall := hnot a ha
    rw [hr] at hall
    simpa using hall
  exact ⟨app', outputs, h, serveAll_reads memoryWorld_readsKeep hreads h⟩

end RedStore.Service
