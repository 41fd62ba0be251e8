/-
When success is what it says.

DELETE of a graph reports what the removal reports.  PUT does not look at what the removal of
the old triples reports, so that whatever it has left stays next to the upload.  DELETE of
the default graph counts the removals that fail, but a NULL object ends its loops without
being counted, and what would have come behind it stays.
-/
import RedStore.Service.ErrorPages
import RedStore.Service.Uploads

namespace RedStore.Service
open CLib RedHttp

variable {T R σ α : Type}

/-! ### Loops of removals -/

/-- The objects that a loop gets to see: those in front of the first NULL. -/
def handedBack : Stream α → List α
  | [] => []
  | .log _ :: stream => handedBack stream
  | .object none :: _ => []
  | .object (some o) :: stream => o :: handedBack stream

/-- Nothing is logged in front of the first NULL. -/
def Silent : Stream α → Prop
  | [] => True
  | .log _ :: _ => False
  | .object none :: _ => True
  | .object (some _) :: stream => Silent stream

/-- The storage after some removals. -/
def sweep (remove : α → σ → Answer σ Bool) : List α → σ → σ
  | [], s => s
  | a :: as, s => sweep remove as (remove a s).storage

/-- All of the removals report success and log nothing. -/
def Sweeps (remove : α → σ → Answer σ Bool) : List α → σ → Prop
  | [], _ => True
  | a :: as, s => (remove a s).value = false ∧ (remove a s).logs = [] ∧
      Sweeps remove as (remove a s).storage

/-- Both loops of `remove_all_statements`, by the removal. -/
def removeEach (remove : α → σ → Answer σ Bool) : Stream α → ℕ → ServiceM σ ℕ
  | [], err => pure err
  | .log m :: stream, err => do
    redlandLogHandler m
    removeEach remove stream err
  | .object none :: _, err => pure err
  | .object (some o) :: stream, err => do
    let failed ← call (remove o)
    removeEach remove stream (if failed then err + 1 else err)

lemma removeGraphs_eq (w : World T R σ) (iterator : Stream Node) (err : ℕ) :
    removeGraphs w iterator err = removeEach w.contextRemoveStatements iterator err := by
  induction iterator generalizing err with
  | nil => rfl
  | cons event iterator ih =>
    match event with
    | .log m => simp only [removeGraphs, removeEach, ih]
    | .object none => rfl
    | .object (some graph) => simp only [removeGraphs, removeEach, ih]

lemma removeStatements_eq (w : World T R σ) (stream : Stream T) (err : ℕ) :
    removeStatements w stream err = removeEach w.removeStatement stream err := by
  induction stream generalizing err with
  | nil => rfl
  | cons event stream ih =>
    match event with
    | .log m => simp only [removeStatements, removeEach, ih]
    | .object none => rfl
    | .object (some statement) => simp only [removeStatements, removeEach, ih]

/-- A loop of removals sweeps what is handed back in front of the first NULL, and it is left
without errors exactly if it had none to begin with and no removal has failed or logged. -/
lemma removeEach_spec (remove : α → σ → Answer σ Bool) (stream : Stream α) (err : ℕ)
    (c : Conn (App σ)) :
    ∃ err' c', removeEach remove stream err c = .ok err' c' ∧ c'.request = c.request ∧
      c'.app.storage = sweep remove (handedBack stream) c.app.storage ∧
      (err' = 0 ∧ c'.app.errorBuffer = none ↔ (err = 0 ∧ c.app.errorBuffer = none) ∧
        Silent stream ∧ Sweeps remove (handedBack stream) c.app.storage) := by
  induction stream generalizing err c with
  | nil => exact ⟨err, c, rfl, rfl, rfl, by simp [Silent, Sweeps, handedBack]⟩
  | cons event stream ih =>
    match event with
    | .log m =>
      obtain ⟨err', c', hrun, hrequest, hstorage, hclean⟩ :=
        ih err { c with app := c.app.afterLog m }
      refine ⟨err', c', ?_, hrequest, hstorage, ?_⟩
      · rw [removeEach, bind_of_ok (redlandLogHandler_apply m c), hrun]
      · rw [hclean]
        simp [App.afterLog, bufferAfter, Silent]
    | .object none => exact ⟨err, c, rfl, rfl, rfl, by simp [Silent, Sweeps, handedBack]⟩
    | .object (some o) =>
      obtain ⟨err', c', hrun, hrequest, hstorage, hclean⟩ :=
        ih (if (remove o c.app.storage).value then err + 1 else err)
          (called c (remove o c.app.storage))
      refine ⟨err', c', ?_, hrequest, ?_, ?_⟩
      · rw [removeEach, bind_of_ok (call_apply _ _), hrun]
      · rw [hstorage, called_storage]
        rfl
      · rw [hclean, called_errorBuffer_eq_none_iff, called_storage]
        simp only [Silent, handedBack, Sweeps]
        cases (remove o c.app.storage).value with
        | true => simp
        | false =>
          simp only [Bool.false_eq_true, if_false, true_and]
          tauto

/-! ### What is left -/

section Left

variable {w : World T R σ} {quads : σ → Set (T × Option Node)} {c : Conn (App σ)}

/-- What is relied on of the calls that report success: what they were to do is done.  Listing
the graphs and the statements changes nothing. -/
structure Reports (w : World T R σ) (quads : σ → Set (T × Option Node)) : Prop where
  getContexts : ∀ s, quads (w.storageGetContexts s).storage = quads s
  asStream : ∀ s, quads (w.modelAsStream s).storage = quads s
  add : ∀ graph stream s, (w.contextAddStatements graph stream s).value = false →
    quads (w.contextAddStatements graph stream s).storage =
      Dataset.add (quads s) graph (triplesOf stream)
  clear : ∀ graph s, (w.contextRemoveStatements graph s).value = false →
    quads (w.contextRemoveStatements graph s).storage = Dataset.clear (quads s) (some graph)
  remove : ∀ t s, (w.removeStatement t s).value = false →
    quads (w.removeStatement t s).storage = Dataset.remove (quads s) none {t}

/-- What is relied on of the removals that report success. -/
structure Removes (w : World T R σ) (quads : σ → Set (T × Option Node)) : Prop where
  getContexts : ∀ s, quads (w.storageGetContexts s).storage = quads s
  asStream : ∀ s, quads (w.modelAsStream s).storage = quads s
  clear : ∀ graph s, (w.contextRemoveStatements graph s).value = false →
    quads (w.contextRemoveStatements graph s).storage = Dataset.clear (quads s) (some graph)
  remove : ∀ t s, (w.removeStatement t s).value = false →
    quads (w.removeStatement t s).storage = Dataset.remove (quads s) none {t}

lemma Reports.removes (hw : Reports w quads) : Removes w quads :=
  ⟨hw.getContexts, hw.asStream, hw.clear, hw.remove⟩

lemma mem_quads_sweep_graphs (hw : Removes w quads) {graphs : List Node} {s : σ}
    (h : Sweeps w.contextRemoveStatements graphs s) {q : T × Option Node} :
    q ∈ quads (sweep w.contextRemoveStatements graphs s) ↔
      q ∈ quads s ∧ ∀ graph ∈ graphs, q.2 ≠ some graph := by
  induction graphs generalizing s with
  | nil => simp [sweep]
  | cons graph graphs ih =>
    rw [sweep, ih h.2.2, hw.clear graph s h.1, Dataset.mem_clear, List.forall_mem_cons, and_assoc]

lemma mem_quads_sweep_statements (hw : Removes w quads) {ts : List T} {s : σ}
    (h : Sweeps w.removeStatement ts s) {q : T × Option Node} :
    q ∈ quads (sweep w.removeStatement ts s) ↔ q ∈ quads s ∧ (q.2 = none → q.1 ∉ ts) := by
  induction ts generalizing s with
  | nil => simp [sweep]
  | cons t ts ih =>
    rw [sweep, ih h.2.2, hw.remove t s h.1, Dataset.mem_remove, Set.mem_singleton_iff,
      List.mem_cons, and_assoc]
    refine and_congr_right fun _ => ?_
    tauto

/-- The storage after the first loop of `remove_all_statements`. -/
def afterGraphs (w : World T R σ) (s : σ) (iterator : Stream Node) : σ :=
  sweep w.contextRemoveStatements (handedBack iterator) (w.storageGetContexts s).storage

/-- The storage after both loops. -/
def afterStatements (w : World T R σ) (s : σ) (iterator : Stream Node) (stream : Stream T) : σ :=
  sweep w.removeStatement (handedBack stream) (w.modelAsStream (afterGraphs w s iterator)).storage

/-- Every call of `remove_all_statements` reports success and logs nothing. -/
structure SweptClean (w : World T R σ) (app : App σ) (iterator : Stream Node)
    (stream : Stream T) : Prop where
  buffer : app.errorBuffer = none
  contexts : (w.storageGetContexts app.storage).value = some iterator
  contextsSilent : (w.storageGetContexts app.storage).logs = []
  iteratorSilent : Silent iterator
  graphs : Sweeps w.contextRemoveStatements (handedBack iterator)
    (w.storageGetContexts app.storage).storage
  model : (w.modelAsStream (afterGraphs w app.storage iterator)).value = some stream
  modelSilent : (w.modelAsStream (afterGraphs w app.storage iterator)).logs = []
  streamSilent : Silent stream
  statements : Sweeps w.removeStatement (handedBack stream)
    (w.modelAsStream (afterGraphs w app.storage iterator)).storage

/-- What is swept is what Redland hands out. -/
lemma SweptClean.unique {app : App σ} {iterator iterator' : Stream Node} {stream stream' : Stream T}
    (h : SweptClean w app iterator stream) (h' : SweptClean w app iterator' stream') :
    iterator = iterator' ∧ stream = stream' := by
  obtain rfl : iterator = iterator' := Option.some.inj (h.contexts.symm.trans h'.contexts)
  exact ⟨rfl, Option.some.inj (h.model.symm.trans h'.model)⟩

/-- After a clean sweep the store is empty exactly if all of it has been handed back. -/
lemma quads_afterStatements_eq_empty_iff (hw : Removes w quads) {app : App σ}
    {iterator : Stream Node} {stream : Stream T} (h : SweptClean w app iterator stream) :
    quads (afterStatements w app.storage iterator stream) = ∅ ↔
      (∀ t graph, (t, some graph) ∈ quads app.storage → graph ∈ handedBack iterator) ∧
        ∀ t, (t, none) ∈ quads app.storage → t ∈ handedBack stream := by
  have hmem : ∀ q, q ∈ quads (afterStatements w app.storage iterator stream) ↔
      (q ∈ quads app.storage ∧ ∀ graph ∈ handedBack iterator, q.2 ≠ some graph) ∧
        (q.2 = none → q.1 ∉ handedBack stream) := by
    intro q
    rw [afterStatements, mem_quads_sweep_statements hw h.statements, hw.asStream, afterGraphs,
      mem_quads_sweep_graphs hw h.graphs, hw.getContexts]
  rw [Set.eq_empty_iff_forall_notMem]
  constructor
  · intro hempty
    constructor
    · intro t graph hq
      by_contra hgraph
      refine hempty (t, some graph) ((hmem _).mpr ⟨⟨hq, ?_⟩, by simp⟩)
      rintro graph' hgraph' heq
      obtain rfl := Option.some.inj heq
      exact hgraph hgraph'
    · intro t hq
      by_contra ht
      exact hempty (t, none) ((hmem _).mpr ⟨⟨hq, by simp⟩, fun _ => ht⟩)
  · rintro ⟨hgraphs, hstatements⟩ ⟨t, graph⟩ hq
    obtain ⟨⟨hq, hne⟩, hnone⟩ := (hmem _).mp hq
    cases graph with
    | none => exact hnone rfl (hstatements t hq)
    | some graph => exact hne graph (hgraphs t graph hq) rfl

end Left

/-! ### DELETE of the default graph -/

section DeleteDefault

variable {w : World T R σ} {c : Conn (App σ)}

lemma errOrErrorBuffer_apply (err : ℕ) (c : Conn (App σ)) :
    ∃ c', errOrErrorBuffer err c =
        .ok (!decide (err = 0 ∧ c.app.errorBuffer = none)) c' ∧
      c'.request = c.request ∧ c'.app.storage = c.app.storage ∧
      c'.app.errorBuffer = c.app.errorBuffer := by
  by_cases herr : err = 0
  · refine ⟨looked c, ?_, rfl, rfl, rfl⟩
    simp only [errOrErrorBuffer, herr, ne_eq, not_true_eq_false, if_false, true_and]
    change (inspectErrorBuffer >>= fun buffer => pure buffer.isSome) c = _
    rw [bind_of_ok (inspect_apply c)]
    cases c.app.errorBuffer <;> rfl
  · refine ⟨c, ?_, rfl, rfl, rfl⟩
    simp only [errOrErrorBuffer, herr, ne_eq, not_false_eq_true, if_true, false_and, decide_false,
      Bool.not_false, pure_apply]

/-- `remove_all_statements` ends in a page, which reports success exactly after a clean sweep. -/
lemma removeAllStatements_cases (w : World T R σ) (c : Conn (App σ)) :
    ∃ code message c', removeAllStatements w c = redstorePageNewWithMessage w code message c' ∧
      c'.request = c.request ∧
      (code = .ok ↔ ∃ iterator stream, SweptClean w c.app iterator stream) ∧
      ∀ iterator stream, SweptClean w c.app iterator stream → c'.app.errorBuffer = none ∧
        c'.app.storage = afterStatements w c.app.storage iterator stream := by
  -- a page that reports a failure, when there can be no clean sweep
  have hfailed : ∀ message c', c'.request = c.request →
      (∀ iterator stream, ¬ SweptClean w c.app iterator stream) →
      ∃ code message' c'', redstorePageNewWithMessage w .internalServerError message c' =
          redstorePageNewWithMessage w code message' c'' ∧ c''.request = c.request ∧
        (code = .ok ↔ ∃ iterator stream, SweptClean w c.app iterator stream) ∧
        ∀ iterator stream, SweptClean w c.app iterator stream → c''.app.errorBuffer = none ∧
          c''.app.storage = afterStatements w c.app.storage iterator stream := by
    intro message c' hrequest hno
    refine ⟨_, _, _, rfl, hrequest, ⟨by rintro ⟨⟩, ?_⟩, fun _ _ h => absurd h (hno _ _)⟩
    rintro ⟨_, _, h⟩
    exact absurd h (hno _ _)
  simp only [removeAllStatements, bind_apply, call_apply]
  cases hcontexts : (w.storageGetContexts c.app.storage).value with
  | none =>
    refine hfailed _ _ rfl fun iterator stream h => ?_
    cases hcontexts.symm.trans h.contexts
  | some iterator =>
    obtain ⟨err₁, c₁, hrun₁, hrequest₁, hstorage₁, hclean₁⟩ :=
      removeEach_spec w.contextRemoveStatements iterator 0
        (called c (w.storageGetContexts c.app.storage))
    rw [called_storage] at hstorage₁ hclean₁
    rw [called_errorBuffer_eq_none_iff] at hclean₁
    change c₁.app.storage = afterGraphs w c.app.storage iterator at hstorage₁
    simp only [removeGraphs_eq, bind_apply, hrun₁, call_apply, hstorage₁]
    cases hmodel : (w.modelAsStream (afterGraphs w c.app.storage iterator)).value with
    | none =>
      refine hfailed _ _ hrequest₁ fun iterator' stream h => ?_
      obtain rfl : iterator = iterator' := Option.some.inj (hcontexts.symm.trans h.contexts)
      cases hmodel.symm.trans h.model
    | some stream =>
      obtain ⟨err₂, c₂, hrun₂, hrequest₂, hstorage₂, hclean₂⟩ :=
        removeEach_spec w.removeStatement stream err₁
          (called c₁ (w.modelAsStream (afterGraphs w c.app.storage iterator)))
      rw [called_storage] at hstorage₂ hclean₂
      rw [called_errorBuffer_eq_none_iff] at hclean₂
      obtain ⟨c₃, hrun₃, hrequest₃, hstorage₃, hbuffer₃⟩ := errOrErrorBuffer_apply err₂ c₂
      have hrequest : c₃.request = c.request := by
        rw [hrequest₃, hrequest₂]
        exact hrequest₁
      have hswept : (err₂ = 0 ∧ c₂.app.errorBuffer = none) ↔
          SweptClean w c.app iterator stream := by
        rw [hclean₂, ← and_assoc (a := err₁ = 0), hclean₁]
        constructor
        · rintro ⟨⟨⟨⟨-, hbuffer, hsilent⟩, hiterator, hgraphs⟩, hmodelSilent⟩, hstream, hstatements⟩
          exact ⟨hbuffer, hcontexts, hsilent, hiterator, hgraphs, hmodel, hmodelSilent, hstream,
            hstatements⟩
        · intro h
          exact ⟨⟨⟨⟨rfl, h.buffer, h.contextsSilent⟩, h.iteratorSilent, h.graphs⟩, h.modelSilent⟩,
            h.streamSilent, h.statements⟩
      simp only [removeStatements_eq, bind_apply, hrun₂, hrun₃]
      by_cases hclean : err₂ = 0 ∧ c₂.app.errorBuffer = none
      · simp only [hclean, and_self, decide_true, Bool.not_true, Bool.false_eq_true, if_false]
        refine ⟨_, _, c₃, rfl, hrequest, iff_of_true rfl ⟨_, _, hswept.mp hclean⟩, ?_⟩
        intro iterator' stream' h
        obtain ⟨rfl, rfl⟩ := h.unique (hswept.mp hclean)
        refine ⟨hbuffer₃.trans hclean.2, ?_⟩
        rw [hstorage₃, hstorage₂]
        rfl
      · simp only [hclean, decide_false, Bool.not_false, if_true]
        refine hfailed _ _ hrequest fun iterator' stream' h => hclean (hswept.mpr ?_)
        obtain rfl : iterator = iterator' := Option.some.inj (hcontexts.symm.trans h.contexts)
        obtain rfl : stream = stream' := Option.some.inj (hmodel.symm.trans h.model)
        exact h

end DeleteDefault

/-! ### What success stands for -/

section Sound

variable {w : World T R σ} {quads : σ → Set (T × Option Node)} {c c' : Conn (App σ)}

/-- PUT reports success only if its graph holds the upload and nothing else. -/
def PutSound (w : World T R σ) (quads : σ → Set (T × Option Node)) (c : Conn (App σ)) : Prop :=
  ∀ response c', handleDataPut w c = .ok (some response) c' → response.status = .ok →
    ∃ node stream c₁, requestNode w c.request = some node ∧
      uploadStream w (some node) (urlConn c) = .ok (.ok stream) c₁ ∧
      Dataset.content (quads c'.app.storage) (some node) = triplesOf stream

/-- DELETE of a graph reports success only if the graph is empty. -/
def DeleteGraphSound (w : World T R σ) (quads : σ → Set (T × Option Node)) (c : Conn (App σ)) :
    Prop :=
  ∀ response c', hasDefault c.request = false → handleDataDelete w c = .ok (some response) c' →
    response.status = .ok →
      ∃ node, requestNode w c.request = some node ∧
        Dataset.content (quads c'.app.storage) (some node) = ∅

/-- DELETE of the default graph reports success only if the store is empty. -/
def DeleteDefaultSound (w : World T R σ) (quads : σ → Set (T × Option Node)) (c : Conn (App σ)) :
    Prop :=
  ∀ response c', hasDefault c.request = true → handleDataDelete w c = .ok (some response) c' →
    response.status = .ok → quads c'.app.storage = ∅

/-- The addition of the new triples by a PUT. -/
def putAddition (w : World T R σ) (node : Node) (stream : Stream T) (c : Conn (App σ)) :
    Answer σ Bool :=
  w.contextAddStatements (some node) stream (putRemoval w node c).storage

/-- A PUT whose triples are stored, whatever the removal of the old ones reports: `c₁` is the
connection in front of the removal. -/
structure PutStored (w : World T R σ) (c : Conn (App σ)) (node : Node) (stream : Stream T)
    (c₁ : Conn (App σ)) : Prop where
  named : (hasGraph c.request || hasPath c.request) = true
  notDefault : hasDefault c.request = false
  names : requestNode w c.request = some node
  upload : uploadStream w (some node) (urlConn c) = .ok (.ok stream) c₁
  added : (putAddition w node stream c₁).value = false
  buffer : c₁.app.errorBuffer = none
  removalSilent : (putRemoval w node c₁).logs = []
  additionSilent : (putAddition w node stream c₁).logs = []
  answerable : CanAnswer c.request

/-- The connection at the end of such a PUT. -/
def putEnd (w : World T R σ) (node : Node) (stream : Stream T) (c : Conn (App σ)) :
    Conn (App σ) :=
  looked (looked (called (called c (putRemoval w node c)) (putAddition w node stream c)))

lemma page_of_ok {code : Status} {message : List UInt8} {response : Response}
    (h : redstorePageNewWithMessage w code message c = .ok response c')
    (hstatus : response.status = .ok) : code = .ok :=
  (pageNewWithMessage_of_ok h).1.symm.trans hstatus

/-- A load reports success exactly if the triples are stored and nothing has been logged. -/
lemma loadStreamIntoGraph_ok_iff {stream : Stream T} {graph : Option Node} :
    (∃ response, loadStreamIntoGraph w stream graph c = .ok response c' ∧
        response.status = .ok) ↔
      (w.contextAddStatements graph stream c.app.storage).value = false ∧
        (called c (w.contextAddStatements graph stream c.app.storage)).app.errorBuffer = none ∧
        CanAnswer c.request ∧
        c' = looked (looked (called c (w.contextAddStatements graph stream c.app.storage))) := by
  rw [loadStreamIntoGraph_eq]
  dsimp only
  set c₁ := called c (w.contextAddStatements graph stream c.app.storage) with hc₁
  cases (w.contextAddStatements graph stream c.app.storage).value with
  | true =>
    simp only [if_true, Bool.true_eq_false, false_and, iff_false]
    rintro ⟨response, h, hstatus⟩
    cases page_of_ok h hstatus
  | false =>
    cases hbuffer : c₁.app.errorBuffer with
    | some buffer =>
      simp only [Bool.false_eq_true, if_false, Option.isSome_some, if_true, reduceCtorEq,
        false_and, and_false, iff_false]
      rintro ⟨response, h, hstatus⟩
      cases page_of_ok h hstatus
    | none =>
      simp only [Bool.false_eq_true, if_false, Option.isSome_none, true_and]
      have hpage : (∃ response, redstorePageNewWithMessage w .ok
          (bytesOf "Successfully added triples to: " ++ shown (graphName graph)) (looked c₁) =
            .ok response c') ↔ _ :=
        pageNewWithMessage_ok_iff (c := looked c₁) hbuffer
      rw [show (looked c₁).request = c.request from rfl] at hpage
      rw [← hpage]
      constructor
      · rintro ⟨response, h, -⟩
        exact ⟨response, h⟩
      · rintro ⟨response, h⟩
        exact ⟨response, h, (pageNewWithMessage_of_ok h).1⟩

/-- PUT reports success exactly for an upload that is stored. -/
lemma handleDataPut_ok_iff :
    (∃ response, handleDataPut w c = .ok (some response) c' ∧ response.status = .ok) ↔
      ∃ node stream c₁, PutStored w c node stream c₁ ∧ c' = putEnd w node stream c₁ := by
  constructor
  · rintro ⟨response, h, hstatus⟩
    rcases withTarget_cases h with hrefused | ⟨-, -, hpage⟩ | ⟨hnamed, hdefault, node, hnode, hput⟩
    · rcases hrefused.status with hcode | hcode <;> cases hcode.symm.trans hstatus
    · cases page_of_ok hpage hstatus
    · rcases parseDataFromRequestBody_cases Reads.refl.urlConn hput with
        hrefused | ⟨stream, c₁, hupload, hreads, hproc⟩
      · rcases hrefused.status with hcode | hcode <;> cases hcode.symm.trans hstatus
      · rw [clearAndLoad_eq] at hproc
        obtain ⟨hadded, hbuffer, hanswer, hend⟩ :=
          loadStreamIntoGraph_ok_iff.mp ⟨response, hproc, hstatus⟩
        rw [called_storage] at hadded hbuffer hend
        rw [called_errorBuffer_eq_none_iff, called_errorBuffer_eq_none_iff] at hbuffer
        exact ⟨node, stream, c₁, ⟨hnamed, hdefault, hnode, hupload, hadded, hbuffer.1.1,
          hbuffer.1.2, hbuffer.2, (canAnswer_congr hreads.headers hreads.arguments).mp hanswer⟩,
          hend⟩
  · rintro ⟨node, stream, c₁, h, rfl⟩
    obtain ⟨_, _, hupload, hreads, -⟩ := uploadStream_reads (some node)
      (Reads.refl (w := w) (c := c)).urlConn
    obtain ⟨rfl, rfl⟩ : Except.ok stream = _ ∧ c₁ = _ := by
      simpa using h.upload.symm.trans hupload
    have hload : ∃ response, loadStreamIntoGraph w stream (some node)
        (called c₁ (putRemoval w node c₁)) = .ok response (putEnd w node stream c₁) ∧
          response.status = .ok := by
      refine loadStreamIntoGraph_ok_iff.mpr ⟨?_, ?_, ?_, ?_⟩
      · rw [called_storage]
        exact h.added
      · rw [called_storage, called_errorBuffer_eq_none_iff, called_errorBuffer_eq_none_iff]
        exact ⟨⟨h.buffer, h.removalSilent⟩, h.additionSilent⟩
      · exact (canAnswer_congr hreads.headers hreads.arguments).mpr h.answerable
      · rw [called_storage]
        rfl
    obtain ⟨response, hrun, hstatus⟩ := hload
    refine ⟨response, ?_, hstatus⟩
    rw [handleDataPut, withTarget_of_named h.named h.notDefault, map_some_eq_ok_iff,
      withGraphNode_apply, h.names]
    dsimp only
    rw [parseDataFromRequestBody_eq, bind_of_ok h.upload, processUpload, clearAndLoad_eq]
    exact hrun

/-- What the removal by a PUT has left is part of the upload, if the upload is stored. -/
def LeftoverUploaded (w : World T R σ) (quads : σ → Set (T × Option Node)) (c : Conn (App σ)) :
    Prop :=
  ∀ node stream c₁, PutStored w c node stream c₁ →
    Dataset.content (quads (putRemoval w node c₁).storage) (some node) ⊆ triplesOf stream

/-- PUT is sound exactly if nothing but parts of the upload outlasts the removal. -/
lemma putSound_iff (hw : Reports w quads) : PutSound w quads c ↔ LeftoverUploaded w quads c := by
  have hend : ∀ {node stream c₁}, PutStored w c node stream c₁ →
      Dataset.content (quads (putEnd w node stream c₁).app.storage) (some node) =
        Dataset.content (quads (putRemoval w node c₁).storage) (some node) ∪ triplesOf stream := by
    intro node stream c₁ h
    have hstorage : (putEnd w node stream c₁).app.storage =
        (putAddition w node stream c₁).storage := by
      rw [putEnd, looked_storage, looked_storage, called_storage]
    rw [hstorage, putAddition, hw.add _ _ _ h.added, Dataset.content_add_self]
  constructor
  · intro hsound node stream c₁ h
    obtain ⟨response, hput, hstatus⟩ := handleDataPut_ok_iff.mpr ⟨node, stream, c₁, h, rfl⟩
    obtain ⟨node', stream', c₁', hnode, hupload, hcontent⟩ := hsound response _ hput hstatus
    obtain rfl : node = node' := Option.some.inj (h.names.symm.trans hnode)
    obtain ⟨rfl, rfl⟩ : stream = stream' ∧ c₁ = c₁' := by
      simpa using h.upload.symm.trans hupload
    rw [hend h] at hcontent
    exact hcontent ▸ Set.subset_union_left
  · intro hleft response c' hput hstatus
    obtain ⟨node, stream, c₁, h, rfl⟩ := handleDataPut_ok_iff.mp ⟨response, hput, hstatus⟩
    refine ⟨node, stream, c₁, h.names, h.upload, ?_⟩
    rw [hend h]
    exact Set.union_eq_self_of_subset_left (hleft node stream c₁ h)

/-- DELETE of a graph is sound. -/
lemma deleteGraphSound (hw : Reports w quads) : DeleteGraphSound w quads c := by
  intro response c' hdefault h hstatus
  rcases withTarget_cases h with hrefused | ⟨-, htrue, -⟩ | ⟨-, -, node, hnode, hdelete⟩
  · rcases hrefused.status with hcode | hcode <;> cases hcode.symm.trans hstatus
  · cases htrue.symm.trans hdefault
  · refine ⟨node, hnode, ?_⟩
    simp only [ifContained, bind_apply, call_apply] at hdelete
    split at hdelete
    · simp only [bind_apply, call_apply] at hdelete
      split at hdelete
      · cases page_of_ok hdelete hstatus
      · next hremoved =>
        rw [(pageNewWithMessage_of_ok hdelete).2, looked_storage, called_storage,
          hw.clear _ _ (by simpa using hremoved), Dataset.content_clear_self]
    · cases page_of_ok hdelete hstatus

/-- All of the store is handed back to the loops of a DELETE of the default graph that reports
success. -/
def SweepComplete (w : World T R σ) (quads : σ → Set (T × Option Node)) (c : Conn (App σ)) :
    Prop :=
  ∀ iterator stream, hasGraph c.request = false → hasDefault c.request = true →
    CanAnswer c.request → SweptClean w c.app iterator stream →
      (∀ t graph, (t, some graph) ∈ quads c.app.storage → graph ∈ handedBack iterator) ∧
        ∀ t, (t, none) ∈ quads c.app.storage → t ∈ handedBack stream

/-- DELETE of the default graph is sound exactly if all of the store is handed back. -/
lemma deleteDefaultSound_iff (hw : Reports w quads) :
    DeleteDefaultSound w quads c ↔ SweepComplete w quads c := by
  obtain ⟨code, message, c₁, hrun, hrequest, hcode, hswept⟩ := removeAllStatements_cases w c
  constructor
  · intro hsound iterator stream hgraph hdefault hanswer hclean
    obtain ⟨hbuffer, hstorage⟩ := hswept iterator stream hclean
    obtain rfl : code = .ok := hcode.mpr ⟨iterator, stream, hclean⟩
    obtain ⟨response, hpage⟩ : ∃ response, redstorePageNewWithMessage w .ok message c₁ =
        .ok response (looked c₁) :=
      (pageNewWithMessage_ok_iff hbuffer).mpr ⟨by rwa [hrequest], rfl⟩
    have hdelete : handleDataDelete w c = .ok (some response) (looked c₁) := by
      rw [handleDataDelete, withTarget_of_default hgraph hdefault, map_some_eq_ok_iff, hrun, hpage]
    have hempty := hsound response _ hdefault hdelete (pageNewWithMessage_of_ok hpage).1
    rw [looked_storage, hstorage] at hempty
    exact (quads_afterStatements_eq_empty_iff hw.removes hclean).mp hempty
  · intro hcomplete response c' hdefault h hstatus
    rcases withTarget_cases h with hrefused | ⟨hgraph, -, hdelete⟩ | ⟨-, hfalse, -⟩
    · rcases hrefused.status with hcode | hcode <;> cases hcode.symm.trans hstatus
    · rw [hrun] at hdelete
      obtain ⟨iterator, stream, hclean⟩ := hcode.mp (page_of_ok hdelete hstatus)
      have hanswer : CanAnswer c.request := by
        rw [← hrequest]
        exact canAnswer_of_ok hdelete
      rw [(pageNewWithMessage_of_ok hdelete).2, looked_storage, (hswept _ _ hclean).2]
      exact (quads_afterStatements_eq_empty_iff hw.removes hclean).mpr
        (hcomplete iterator stream hgraph hdefault hanswer hclean)
    · cases hdefault.symm.trans hfalse

/-- No request claims a success that it is not, exactly if nothing but parts of the upload
outlasts the removal of a PUT that is answered with success, and all of the store is handed
back to a DELETE of the default graph that is. -/
theorem noFalseSuccess_iff (hw : Reports w quads) :
    PutSound w quads c ∧ DeleteGraphSound w quads c ∧ DeleteDefaultSound w quads c ↔
      LeftoverUploaded w quads c ∧ SweepComplete w quads c := by
  rw [putSound_iff hw, deleteDefaultSound_iff hw]
  exact and_congr_right fun _ => and_iff_right (deleteGraphSound hw)

/-- A removal that reports success leaves nothing. -/
lemma leftoverUploaded_of_removed (hw : Reports w quads)
    (h : ∀ node s, (w.contextRemoveStatements node s).value = false) :
    LeftoverUploaded w quads c := by
  intro node stream c₁ _
  rw [putRemoval, hw.clear node _ (h node _), Dataset.content_clear_self]
  exact Set.empty_subset _

end Sound

/-! ### In memory -/

lemma memoryWorld_reports : Reports memoryWorld memoryQuads where
  getContexts _ := rfl
  asStream _ := rfl
  add graph stream s _ := memoryQuads_add graph stream s
  clear graph s _ := memoryQuads_clear graph s
  remove t s _ := memoryQuads_remove t s

/-- The connection of the handler of a PUT of another triple. -/
def putConn : Conn (App MemoryStore) := dataConn ⟨putRequest, occupiedApp⟩ (CString.lit "/x")

theorem noFalseSuccess_put :
    PutSound memoryWorld memoryQuads putConn ∧ DeleteGraphSound memoryWorld memoryQuads putConn ∧
      DeleteDefaultSound memoryWorld memoryQuads putConn := by
  refine (noFalseSuccess_iff memoryWorld_reports).mpr
    ⟨leftoverUploaded_of_removed memoryWorld_reports fun _ _ => rfl, ?_⟩
  intro iterator stream _ hdefault
  exact absurd hdefault (by decide)

/-- A world in which nothing can be removed from a graph. -/
def stuckWorld : World CString Unit MemoryStore :=
  { memoryWorld with contextRemoveStatements := fun _ store => ⟨true, store, []⟩ }

/-- A world in which the list of graphs begins with a NULL. -/
def nullWorld : World CString Unit MemoryStore :=
  { memoryWorld with storageGetContexts := fun store => ⟨some [.object none], store, []⟩ }

lemma stuckWorld_reports : Reports stuckWorld memoryQuads where
  getContexts := memoryWorld_reports.getContexts
  asStream := memoryWorld_reports.asStream
  add := memoryWorld_reports.add
  clear := by rintro _ _ ⟨⟩
  remove := memoryWorld_reports.remove

lemma nullWorld_reports : Reports nullWorld memoryQuads where
  getContexts _ := rfl
  asStream := memoryWorld_reports.asStream
  add := memoryWorld_reports.add
  clear := memoryWorld_reports.clear
  remove := memoryWorld_reports.remove

/-- The connection of the handler of a DELETE of the default graph. -/
def deleteConn : Conn (App MemoryStore) where
  request := {
    arguments := [⟨CString.lit "default", none⟩]
    method := some (CString.lit "DELETE")
    pathAndQuery := some (CString.lit "/data?default")
    path := some (CString.lit "/data")
    version := some (CString.lit "1.0") }
  app := occupiedApp

/-- The triples that an upload has been parsed into. -/
def uploadedObjects {T σ : Type}
    (result : EStateM.Result Fault (Conn (App σ)) (Except (Status × String) (Stream T))) :
    Option (List T) :=
  match result with
  | .ok (.ok stream) _ => some (streamObjects stream)
  | _ => none

/-- PUT reports success although the old triple could not be removed, and DELETE of the default
graph although a NULL has kept it from a graph. -/
theorem failed_removals_answered_with_200 :
    Reports stuckWorld memoryQuads ∧ Reports nullWorld memoryQuads ∧
      outcome (dispatchRequest stuckWorld ⟨putRequest, occupiedApp⟩) =
        some (.ok, [(CString.lit "b.", some graphX), (CString.lit "a.", some graphX)]) ∧
      ¬ PutSound stuckWorld memoryQuads putConn ∧
      outcome (dispatchRequest nullWorld deleteConn) =
        some (.ok, [(CString.lit "b.", some graphX)]) ∧
      ¬ DeleteDefaultSound nullWorld memoryQuads deleteConn := by
  refine ⟨stuckWorld_reports, nullWorld_reports, by decide +kernel, ?_, by decide +kernel, ?_⟩
  · intro hsound
    obtain ⟨response, c, hput, hstatus, hstorage⟩ :=
      outcome_eq_some_iff.mp (show outcome (handleDataPut stuckWorld putConn) =
        some (.ok, [(CString.lit "b.", some graphX), (CString.lit "a.", some graphX)]) by
          decide +kernel)
    obtain ⟨node, stream, c₁, hnode, hupload, hcontent⟩ := hsound response c hput hstatus
    obtain rfl : graphX = node :=
      Option.some.inj ((show requestNode stuckWorld putConn.request = some graphX by
        decide +kernel).symm.trans hnode)
    have hobjects : uploadedObjects (uploadStream stuckWorld (some graphX) (urlConn putConn)) =
        some [CString.lit "a."] := by decide +kernel
    have hmem : CString.lit "b." ∈ triplesOf stream := by
      rw [← hcontent, Dataset.mem_content, hstorage]
      exact List.mem_cons_self
    rw [hupload, uploadedObjects] at hobjects
    rw [triplesOf, Set.mem_ofPred_eq, Option.some.inj hobjects] at hmem
    exact absurd hmem (by decide)
  · intro hsound
    obtain ⟨response, c, hdelete, hstatus, hstorage⟩ :=
      outcome_eq_some_iff.mp (show outcome (handleDataDelete nullWorld deleteConn) =
        some (.ok, [(CString.lit "b.", some graphX)]) by decide +kernel)
    have hempty := hsound response c (by decide) hdelete hstatus
    have hmem : (CString.lit "b.", some graphX) ∈ memoryQuads c.app.storage := by
      rw [hstorage]
      exact List.mem_cons_self
    rw [hempty] at hmem
    exact hmem

end RedStore.Service
