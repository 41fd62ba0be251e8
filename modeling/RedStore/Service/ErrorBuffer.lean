/-
`error_buffer`: what it holds whenever it is looked at, over any run of the service.

The log handler makes the buffer at the first message of a request, whatever its level, and
fills it with the errors.  So its text is always that of the errors; but that it is there
means that something has been logged, not that there has been an error, and a request with
nothing but a warning is answered like one that failed.
-/
import RedStore.Service.HandlerTriples
import RedStore.Service.MemoryWorld
import RedStore.Service.Routing

namespace RedStore.Service
open CLib RedHttp

variable {T R σ : Type} {w : World T R σ}

/-! ### What the buffer should hold -/

/-- Some message is an error. -/
def HasError (messages : List LogMessage) : Prop := ∃ m ∈ messages, m.level = .error

/-- The text of the errors among some messages, in order. -/
def errorTexts (messages : List LogMessage) : List UInt8 :=
  (messages.filter fun m => m.level = .error).flatMap errorText

/-- The buffer that was seen tells whether there has been an error, and which. -/
structure Inspection.Faithful (i : Inspection) : Prop where
  present : i.buffer ≠ none ↔ HasError i.messages
  text : i.buffer.getD [] = errorTexts i.messages

/-- Nothing has been logged, or an error among other things. -/
def ErrorOrNothing (messages : List LogMessage) : Prop := messages = [] ∨ HasError messages

/-! ### What it does hold -/

/-- The buffer behind some messages since it was reset. -/
def bufferOf (messages : List LogMessage) : Option (List UInt8) :=
  if messages = [] then none else some (errorTexts messages)

lemma bufferAfter_bufferOf (messages : List LogMessage) (m : LogMessage) :
    bufferAfter (bufferOf messages) m = bufferOf (messages ++ [m]) := by
  have hgetD : (bufferOf messages).getD [] = errorTexts messages := by
    rw [bufferOf]
    split
    · next h => simp [h, errorTexts]
    · rfl
  have hne : messages ++ [m] ≠ [] := by simp
  rw [bufferAfter, hgetD, bufferOf, if_neg hne]
  by_cases hlevel : m.level = .error <;> simp [errorTexts, List.filter_append, hlevel]

/-- The buffer is that of the messages since it was reset. -/
def Buffered (app : App σ) : Prop := app.errorBuffer = bufferOf app.logged

lemma buffered_of_reset {app : App σ} (hbuffer : app.errorBuffer = none)
    (hlogged : app.logged = []) : Buffered app := by
  rw [Buffered, hbuffer, hlogged]
  rfl

lemma Buffered.afterLog {app : App σ} (h : Buffered app) (m : LogMessage) :
    Buffered (app.afterLog m) := by
  rw [Buffered, App.afterLog, h]
  exact bufferAfter_bufferOf app.logged m

lemma Buffered.afterLogs {app : App σ} (h : Buffered app) (logs : List LogMessage) :
    Buffered (app.afterLogs logs) := by
  induction logs generalizing app with
  | nil => exact h
  | cons m logs ih => exact ih (h.afterLog m)

lemma Buffered.afterCall {α : Type} {app : App σ} (h : Buffered app) (answer : Answer σ α) :
    Buffered (app.afterCall answer) := by
  have hstored : Buffered { app with storage := answer.storage } := h
  exact hstored.afterLogs _

/-- The buffer is there exactly if something has been logged. -/
lemma Buffered.isSome_iff {app : App σ} (h : Buffered app) :
    app.errorBuffer.isSome = true ↔ app.logged ≠ [] := by
  rw [h, bufferOf]
  split <;> simp_all

lemma inspections_afterLogs (app : App σ) (logs : List LogMessage) :
    (app.afterLogs logs).inspections = app.inspections := by
  induction logs generalizing app with
  | nil => rfl
  | cons m logs ih =>
    rw [afterLogs_cons, ih]
    rfl

/-- The buffer is that of the messages since it was reset, and so was every one seen. -/
structure BufferInv (app : App σ) : Prop where
  buffer : Buffered app
  seen : ∀ i ∈ app.inspections, i.buffer = bufferOf i.messages

lemma BufferInv.afterLog {app : App σ} (h : BufferInv app) (m : LogMessage) :
    BufferInv (app.afterLog m) where
  buffer := h.buffer.afterLog m
  seen := h.seen

lemma BufferInv.afterLogs {app : App σ} (h : BufferInv app) (logs : List LogMessage) :
    BufferInv (app.afterLogs logs) where
  buffer := h.buffer.afterLogs logs
  seen := by
    rw [inspections_afterLogs]
    exact h.seen

lemma BufferInv.afterCall {α : Type} {app : App σ} (h : BufferInv app) (answer : Answer σ α) :
    BufferInv (app.afterCall answer) := by
  have hstored : BufferInv { app with storage := answer.storage } := ⟨h.buffer, h.seen⟩
  exact hstored.afterLogs _

lemma BufferInv.inspect {app : App σ} (h : BufferInv app) :
    BufferInv { app with
      inspections := app.inspections ++ [⟨app.errorBuffer, app.logged⟩] } where
  buffer := h.buffer
  seen := by
    simp only [List.mem_append, List.mem_singleton]
    rintro i (hi | rfl)
    · exact h.seen i hi
    · exact h.buffer

/-- A program over the request alone leaves the service as it is. -/
lemma app_onRequest {α : Type} (x : RequestM α) (c : Conn (App σ)) :
    (stateOf (onRequest x c)).app = c.app := by
  rw [onRequest]
  cases x c.request <;> rfl

lemma triple_onRequest {α : Type} {p : App σ → Prop} (x : RequestM α) :
    Maintains (fun c => p c.app) (onRequest x : ServiceM σ α) := by
  have hkeeps : Keeps Conn.app (onRequest x : ServiceM σ α) := app_onRequest x
  exact hkeeps.maintains fun _ => Iff.rfl

/-- The steps of the handlers keep the invariant. -/
lemma bufferRules (w : World T R σ) :
    HandlerRules w (fun c => BufferInv c.app) (fun _ => True) (fun _ c => BufferInv c.app)
      (fun _ c => BufferInv c.app) where
  call f c hc := by
    rw [call_apply]
    exact hc.afterCall _
  log m c hc := hc.afterLog m
  inspect c hc := hc.inspect
  reset c hc := ⟨rfl, hc.seen⟩
  counters f hf := maintains_modify fun c hc => by
    obtain ⟨_, _, _, h⟩ := hf c.app
    rw [h]
    exact ⟨hc.buffer, hc.seen⟩
  url := (triple_onRequest _).mono (fun _ hc => hc) fun _ _ hc => ⟨hc, trivial⟩
  host := triple_onRequest _
  body _ := triple_onRequest _
  glob _ := triple_onRequest _
  built hc _ := hc
  asterisk hc _ := hc
  fallback hc _ := hc
  send _ := triple_onRequest _
  sentCall _ f c hc := by
    rw [call_apply]
    exact hc.afterCall _
  sentLog _ m c hc := hc.afterLog m
  sentWrite _ _ := triple_onRequest _
  sent hc := hc

/-! ### Runs -/

/-- The service after a request; when the process ends, it stays as it was then. -/
def serveRequest (w : World T R σ) (app : App σ) (r : Request) : App σ :=
  (stateOf (dispatchRequest w ⟨r, app⟩)).app

/-- The service after some requests.  A request that ends the process is the last. -/
def runRequests (w : World T R σ) : App σ → List Request → App σ
  | app, [] => app
  | app, r :: rs =>
    match dispatchRequest w ⟨r, app⟩ with
    | .ok _ c => runRequests w c.app rs
    | .error _ c => c.app

/-- What one request keeps, a run keeps. -/
lemma runRequests_induction {p : App σ → Prop}
    (hstep : ∀ app r, p app → p (serveRequest w app r)) {app : App σ} (h : p app)
    (rs : List Request) : p (runRequests w app rs) := by
  induction rs generalizing app with
  | nil => exact h
  | cons r rs ih =>
    have hserve := hstep app r h
    rw [serveRequest] at hserve
    rw [runRequests]
    cases hrun : dispatchRequest w ⟨r, app⟩ with
    | ok response c =>
      rw [hrun] at hserve
      exact ih hserve
    | error e c =>
      rw [hrun] at hserve
      exact hserve

lemma BufferInv.serveRequest {app : App σ} (h : BufferInv app) (r : Request) :
    BufferInv (serveRequest w app r) := by
  have hdispatch := (bufferRules w).dispatchRequest
    (.inr (StepRules.removeTrailingSlash fun hc _ _ => hc)) ⟨r, app⟩ h
  rw [Service.serveRequest]
  cases hrun : dispatchRequest w ⟨r, app⟩ with
  | ok response c =>
    rw [hrun] at hdispatch
    cases response with
    | some response => exact hdispatch
    | none => exact hdispatch
  | error e c =>
    rw [hrun] at hdispatch
    exact hdispatch

lemma BufferInv.runRequests {app : App σ} (h : BufferInv app) (rs : List Request) :
    BufferInv (runRequests w app rs) :=
  runRequests_induction (fun _ r happ => happ.serveRequest r) h rs

/-- The buffer that is seen is faithful exactly when nothing has been logged or an error has. -/
lemma Inspection.faithful_iff {i : Inspection} (h : i.buffer = bufferOf i.messages) :
    i.Faithful ↔ ErrorOrNothing i.messages := by
  constructor
  · intro hfaithful
    by_cases hnil : i.messages = []
    · exact Or.inl hnil
    · refine Or.inr (hfaithful.present.mp ?_)
      rw [h, bufferOf, if_neg hnil]
      simp
  · rintro (hnil | herror)
    · refine ⟨?_, ?_⟩
      · simp [h, hnil, bufferOf, HasError]
      · simp [h, hnil, bufferOf, errorTexts]
    · have hnil : i.messages ≠ [] := by
        rintro hnil
        simp [HasError, hnil] at herror
      refine ⟨?_, ?_⟩
      · rw [h, bufferOf, if_neg hnil]
        simpa using herror
      · rw [h, bufferOf, if_neg hnil]
        rfl

/-! ### Updates -/

/-- What a load is answered, when the triples were stored: all that counts is whether anything
has been logged. -/
lemma loadStreamIntoGraph_status {c c' : Conn (App σ)} {stream : Stream T} {graph : Option Node}
    {response : Response} (hinv : BufferInv c.app)
    (hstored : (w.contextAddStatements graph stream c.app.storage).value = false)
    (h : loadStreamIntoGraph w stream graph c = .ok response c') :
    response.status = if c'.app.logged = [] then .ok else .internalServerError := by
  rw [loadStreamIntoGraph_eq] at h
  simp only [hstored, Bool.false_eq_true, if_false] at h
  set c₁ := called c (w.contextAddStatements graph stream c.app.storage) with hc₁
  have hbuffer : c₁.app.errorBuffer = bufferOf c₁.app.logged := (hinv.afterCall _).buffer
  by_cases hnil : c₁.app.logged = []
  · rw [if_neg (by simp [hbuffer, bufferOf, hnil])] at h
    obtain ⟨hstatus, rfl⟩ := pageNewWithMessage_of_ok h
    simp [hstatus, hnil]
  · rw [if_pos (by simp [hbuffer, bufferOf, hnil])] at h
    obtain ⟨hstatus, rfl⟩ := pageNewWithMessage_of_ok h
    simp [hstatus, hnil]

lemma loadStreamIntoNewGraph_status {c c' : Conn (App σ)} {stream : Stream T}
    {graph : Option Node} {response : Response} (hinv : BufferInv c.app)
    (hstored : (w.contextAddStatements graph stream c.app.storage).value = false)
    (h : loadStreamIntoNewGraph w stream graph c = .ok response c') :
    response.status = if c'.app.logged = [] then .created else .internalServerError := by
  rw [loadStreamIntoNewGraph_eq] at h
  simp only [hstored, Bool.false_eq_true, if_false] at h
  set c₁ := called c (w.contextAddStatements graph stream c.app.storage) with hc₁
  have hbuffer : c₁.app.errorBuffer = bufferOf c₁.app.logged := (hinv.afterCall _).buffer
  by_cases hnil : c₁.app.logged = []
  · rw [if_neg (by simp [hbuffer, bufferOf, hnil])] at h
    obtain ⟨page, hpage, rfl⟩ := map_eq_ok_iff.mp h
    obtain ⟨hstatus, rfl⟩ := pageNewWithMessage_of_ok hpage
    simp [redhttpResponseAddHeader, hstatus, hnil]
  · rw [if_pos (by simp [hbuffer, bufferOf, hnil])] at h
    obtain ⟨hstatus, rfl⟩ := pageNewWithMessage_of_ok h
    simp [hstatus, hnil]

/-- A load whose triples were stored is answered with success if nothing but messages below an
error was logged. -/
def LoadAnswered (w : World T R σ) (c : Conn (App σ)) (stream : Stream T) (graph : Option Node) :
    Prop :=
  (w.contextAddStatements graph stream c.app.storage).value = false →
    ∀ response c', (loadStreamIntoGraph w stream graph c = .ok response c' ∨
        loadStreamIntoNewGraph w stream graph c = .ok response c') →
      ((¬ HasError c'.app.logged → response.status = .ok ∨ response.status = .created) ↔
        ErrorOrNothing c'.app.logged)

lemma BufferInv.loadAnswered {c : Conn (App σ)} (h : BufferInv c.app) (stream : Stream T)
    (graph : Option Node) : LoadAnswered w c stream graph := by
  have hsuccess : ∀ (success : Status) (status : Status) (messages : List LogMessage),
      (success = .ok ∨ success = .created) →
      (status = if messages = [] then success else .internalServerError) →
      ((¬ HasError messages → status = .ok ∨ status = .created) ↔ ErrorOrNothing messages) := by
    rintro success status messages hsuccess rfl
    rw [ErrorOrNothing]
    by_cases hnil : messages = []
    · simp [hnil, hsuccess]
    · by_cases herror : HasError messages <;> simp [hnil, herror]
  rintro hstored response c' (hload | hload)
  · exact hsuccess .ok _ _ (Or.inl rfl) (loadStreamIntoGraph_status h hstored hload)
  · exact hsuccess .created _ _ (Or.inr rfl) (loadStreamIntoNewGraph_status h hstored hload)

/-! ### Whole runs -/

/-- The answer to a request, if the process survives it, and what it left of the request. -/
def answerOf (result : EStateM.Result Fault (Conn (App σ)) (Option Response)) :
    Option (Option Response) × Request :=
  match result with
  | .ok response c => (some response, c.request)
  | .error _ c => (none, c.request)

/-- The answer does not depend on what an earlier request has left in the error buffer. -/
lemma answerOf_dispatchRequest (r : Request) (app : App σ) (buffer : Option (List UInt8))
    (logged : List LogMessage) :
    answerOf (dispatchRequest w ⟨r, { app with errorBuffer := buffer, logged }⟩) =
      answerOf (dispatchRequest w ⟨r, app⟩) := by
  simp only [dispatchRequest, redhttpServerDispatchRequest, bind_apply, get_apply]
  cases r.path with
  | none => rfl
  | some path =>
    cases r.method with
    | none => rfl
    | some method =>
      dsimp only
      split
      · cases asteriskResponse w.heap (redstoreHandlers w) method <;> rfl
      · rw [bind_apply, bind_apply, tryRoutes_reset]

/-- A service within a request, after its reset: some messages have been logged. -/
def withinRequest (app : App σ) (storage : σ) (messages : List LogMessage) : App σ :=
  { app with storage, errorBuffer := none, logged := [] }.afterLogs messages

/-- Over any run from the start of the service: a look at the error buffer shows whether
there has been an error since the reset, and which, exactly when nothing was logged or an
error was; a load that was stored is answered with success in spite of lesser messages under
the same condition; and no message of an earlier request changes an answer. -/
theorem errorBuffer_over_runs (w : World T R σ) (storage : σ) (rs : List Request) :
    (∀ i ∈ (runRequests w { storage } rs).inspections,
        i.Faithful ↔ ErrorOrNothing i.messages) ∧
      (∀ r storage' messages stream graph, LoadAnswered w
        ⟨r, withinRequest (runRequests w { storage } rs) storage' messages⟩ stream graph) ∧
      ∀ r buffer logged, answerOf (dispatchRequest w
          ⟨r, { runRequests w { storage } rs with errorBuffer := buffer, logged }⟩) =
        answerOf (dispatchRequest w ⟨r, runRequests w { storage } rs⟩) := by
  have hinv : BufferInv (runRequests w { storage } rs) :=
    BufferInv.runRequests ⟨buffered_of_reset rfl rfl, by simp⟩ rs
  refine ⟨fun i hi => Inspection.faithful_iff (hinv.seen i hi), ?_,
    fun r buffer logged => answerOf_dispatchRequest r _ buffer logged⟩
  intro r storage' messages stream graph
  refine BufferInv.loadAnswered (c := ⟨r, _⟩) (BufferInv.afterLogs ?_ messages) stream graph
  exact ⟨buffered_of_reset rfl rfl, hinv.seen⟩

/-! ### A warning -/

/-- A message that is not an error. -/
def someWarning : LogMessage := { level := .warn, message := CString.lit "deprecated" }

/-- The world in memory, with a parser that warns. -/
def warningWorld : World CString Unit MemoryStore :=
  { memoryWorld with
    parserParseCountedString := fun _ data _ store =>
      ⟨some (.log someWarning :: parseLines (data.splitOnP (· == ch '\n'))), store, []⟩ }

/-- A PUT that is stored and brings up no more than a warning is answered with 500, and the
error buffer was there without an error. -/
theorem warning_answered_with_500 :
    (match dispatchRequest warningWorld ⟨putRequest, emptyApp⟩ with
      | .ok (some response) c => some (response.status, c.app.storage)
      | _ => none) = some (.internalServerError,
        [(CString.lit "a.", some (.uri (CString.lit "http://localhost/data/x")))]) ∧
      ∃ i ∈ (runRequests warningWorld emptyApp [putRequest]).inspections,
        i.messages = [someWarning] ∧ ¬ i.Faithful := by
  have hinspections : (runRequests warningWorld emptyApp [putRequest]).inspections =
      [⟨some [], [someWarning]⟩, ⟨some [], [someWarning]⟩] := by decide +kernel
  refine ⟨by decide +kernel, ⟨some [], [someWarning]⟩, by simp [hinspections], rfl, ?_⟩
  intro hfaithful
  have herror := hfaithful.present.mp (by simp)
  simp [HasError, someWarning] at herror

end RedStore.Service
