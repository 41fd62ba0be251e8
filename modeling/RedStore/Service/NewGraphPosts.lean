/-
POST to a graph of its own.

`post_to_new_graph` looks for a graph without quads in at most ten rounds, reads its upload and
adds the triples to that graph alone.  The answer is a page, which a client has to be able to
get, and success is told from failure by the error buffer, which is there after a message of any
level.
-/
import RedStore.Service.GraphStore
import RedStore.Service.NewGraphs
import RedStore.Service.UpdateErrors

namespace RedStore.Service
open CLib RedHttp Dataset

variable {T R σ : Type} {w : World T R σ} {quads : σ → Set (T × Option Node)}
  {c c₁ c' : Conn (App σ)}

/-! ### What is relied on -/

/-- What is relied on of Redland: a graph is there if it has a quad, reading changes nothing, and
an addition changes the graph that it names alone, exactly if it reports success.  A node that is
made of a URI has this URI, a path of a new graph is not resolved to an empty one, and raptor has
no string for an empty buffer. -/
structure NamedAdditions (w : World T R σ) (quads : σ → Set (T × Option Node)) : Prop where
  node : ∀ u g, w.newNodeFromUri u = some g → g = .uri u
  resolved : ∀ base n u,
    w.newUriRelativeToBase base (CString.lit "/data/" ++ genidText n) = some u → u.strlen ≠ 0
  text : ∀ buffer, w.stringbufferAsString buffer = none ↔ buffer = []
  contains : ∀ g s, quads (w.containsContext g s).storage = quads s ∧
    ((w.containsContext g s).value = true ↔ (content (quads s) (some g)).Nonempty)
  newParser : ∀ name s, quads (w.newParser name s).storage = quads s
  parse : ∀ name data base s, quads (w.parserParseCountedString name data base s).storage = quads s
  parseUri : ∀ name uri base s, quads (w.parserParse name uri base s).storage = quads s
  added : ∀ g stream s, (w.contextAddStatements (some g) stream s).value = false →
    quads (w.contextAddStatements (some g) stream s).storage =
      Dataset.add (quads s) (some g) (triplesOf stream)
  kept : ∀ g stream s g', g' ≠ some g →
    content (quads (w.contextAddStatements (some g) stream s).storage) g' = content (quads s) g'

/-! ### The graphs that are tried -/

/-- The graph that is tried in a round. -/
def triedGraph (w : World T R σ) (c : Conn (App σ)) (i : ℕ) : Option Node :=
  graphNodeFor w c.request.currentUrl
    (some (CString.lit "/data/" ++ genidText ((nextId w)^[i] (currentBaseId w c.app))))

/-- The graph that is tried in a round has quads. -/
def InUse (w : World T R σ) (quads : σ → Set (T × Option Node)) (c : Conn (App σ)) (i : ℕ) :
    Prop :=
  ∃ g, triedGraph w c i = some g ∧ (content (quads c.app.storage) (some g)).Nonempty

/-- How the search for a graph ends: with the first graph that has no quads, at the first
identifier without a node, or after all rounds. -/
inductive Searched (w : World T R σ) (quads : σ → Set (T × Option Node)) (c : Conn (App σ))
    (attempts : ℕ) : Except String Node → Prop where
  | found {i : ℕ} {g : Node} (hi : i < attempts) (hused : ∀ j < i, InUse w quads c j)
      (hg : triedGraph w c i = some g) (hfree : content (quads c.app.storage) (some g) = ∅) :
      Searched w quads c attempts (.ok g)
  | noNode {i : ℕ} (message : String) (hi : i < attempts) (hused : ∀ j < i, InUse w quads c j)
      (hnone : triedGraph w c i = none) : Searched w quads c attempts (.error message)
  | exhausted (message : String) (hused : ∀ i < attempts, InUse w quads c i) :
      Searched w quads c attempts (.error message)

lemma baseId_afterLogs (app : App σ) (logs : List LogMessage) :
    (app.afterLogs logs).baseId = app.baseId := by
  induction logs generalizing app with
  | nil => rfl
  | cons m logs ih =>
    rw [afterLogs_cons, ih]
    rfl

/-- A connection after a round that has found its graph in use. -/
def roundConn (w : World T R σ) (c : Conn (App σ)) (g : Node) : Conn (App σ) :=
  called (genidConn w (urlConn c)) (w.containsContext g c.app.storage)

lemma triedGraph_roundConn (c : Conn (App σ)) (g : Node) (i : ℕ) :
    triedGraph w (roundConn w c g) i = triedGraph w c (i + 1) := by
  have hurl : (roundConn w c g).request.currentUrl = c.request.currentUrl :=
    currentUrl_withUrl c.request
  have hid : (roundConn w c g).app.baseId = (currentBaseId w c.app + 1) % longRange :=
    baseId_afterLogs _ _
  have hnext : currentBaseId w (roundConn w c g).app = nextId w (currentBaseId w c.app) := by
    rw [currentBaseId, hid, nextId]
  rw [triedGraph, triedGraph, hurl, hnext, Function.iterate_succ_apply]

lemma quads_roundConn (hw : NamedAdditions w quads) (c : Conn (App σ)) (g : Node) :
    quads (roundConn w c g).app.storage = quads c.app.storage := by
  rw [roundConn, called_storage, (hw.contains g c.app.storage).1]

lemma inUse_roundConn (hw : NamedAdditions w quads) (c : Conn (App σ)) (g : Node) (i : ℕ) :
    InUse w quads (roundConn w c g) i ↔ InUse w quads c (i + 1) := by
  rw [InUse, InUse, triedGraph_roundConn, quads_roundConn hw]

/-- A search that goes on after a round has ended as the rounds behind it have. -/
lemma Searched.next (hw : NamedAdditions w quads) {g : Node} {attempts : ℕ}
    {result : Except String Node} (hused : InUse w quads c 0)
    (h : Searched w quads (roundConn w c g) attempts result) :
    Searched w quads c (attempts + 1) result := by
  have hcons : ∀ i, (∀ j < i, InUse w quads (roundConn w c g) j) →
      ∀ j < i + 1, InUse w quads c j := by
    intro i hi j hj
    cases j with
    | zero => exact hused
    | succ j => exact (inUse_roundConn hw c g j).mp (hi j (Nat.lt_of_succ_lt_succ hj))
  cases h with
  | @found i g' hi hused' hg hfree =>
    rw [triedGraph_roundConn] at hg
    rw [quads_roundConn hw] at hfree
    exact .found (Nat.succ_lt_succ hi) (hcons i hused') hg hfree
  | @noNode i message hi hused' hnone =>
    rw [triedGraph_roundConn] at hnone
    exact .noNode message (Nat.succ_lt_succ hi) (hcons i hused') hnone
  | exhausted message hused' => exact .exhausted message (hcons attempts hused')

lemma findNewGraph_searched (hw : NamedAdditions w quads) (attempts : ℕ) (c : Conn (App σ)) :
    ∃ result c₁, findNewGraph w attempts c = .ok result c₁ ∧
      Searched w quads c attempts result := by
  induction attempts generalizing c with
  | zero => exact ⟨_, c, rfl, .exhausted _ fun i hi => absurd hi (Nat.not_lt_zero i)⟩
  | succ attempts ih =>
    rw [findNewGraph_succ]
    have htried : nextGraph w c = triedGraph w c 0 := rfl
    rw [htried]
    cases hg : triedGraph w c 0 with
    | none =>
      exact ⟨_, _, rfl, .noNode _ (Nat.succ_pos attempts)
        (fun j hj => absurd hj (Nat.not_lt_zero j)) hg⟩
    | some g =>
      have hcontains := (hw.contains g c.app.storage).2
      dsimp only
      split
      · next hvalue =>
        obtain ⟨result, c₁, hrun, hsearched⟩ := ih (roundConn w c g)
        exact ⟨result, c₁, hrun, hsearched.next hw ⟨g, hg, hcontains.mp hvalue⟩⟩
      · next hvalue =>
        have hfree : content (quads c.app.storage) (some g) = ∅ :=
          Set.not_nonempty_iff_eq_empty.mp fun hne => hvalue (hcontains.mpr hne)
        exact ⟨_, _, rfl, .found (Nat.succ_pos attempts)
          (fun j hj => absurd hj (Nat.not_lt_zero j)) hg hfree⟩

/-! ### Up to the triples -/

/-- The part of `post_to_new_graph` in front of the addition: the graph and the triples, or the
status and the message of a page. -/
def newGraphUpload (w : World T R σ) :
    ServiceM σ (Except (Status × String) (Node × Stream T)) := do
  match ← findNewGraph w 10 with
  | .error message => pure (.error (.internalServerError, message))
  | .ok graphNode =>
    match ← uploadStream w (some graphNode) with
    | .error failure => pure (.error failure)
    | .ok stream => pure (.ok (graphNode, stream))

/-- What is done behind it. -/
def finishUpload (w : World T R σ) :
    Except (Status × String) (Node × Stream T) → ServiceM σ Response
  | .error (status, message) => redstorePageNewWithMessage w status (bytesOf message)
  | .ok (graphNode, stream) => loadStreamIntoNewGraph w stream (some graphNode)

lemma postToNewGraph_eq (c : Conn (App σ)) :
    postToNewGraph w c = (newGraphUpload w >>= finishUpload w) c := by
  simp only [postToNewGraph, newGraphUpload, bind_apply]
  cases findNewGraph w 10 c with
  | error e c₁ => rfl
  | ok found c₁ =>
    cases found with
    | error message => rfl
    | ok graphNode =>
      dsimp only
      rw [parseDataFromRequestBody_eq, bind_apply, bind_apply]
      cases uploadStream w (some graphNode) c₁ with
      | error e c₂ => rfl
      | ok result c₂ => cases result <;> rfl

/-- How the part in front of the addition ends. -/
inductive Uploaded (w : World T R σ) (quads : σ → Set (T × Option Node)) (c : Conn (App σ)) :
    Except (Status × String) (Node × Stream T) → Prop where
  | noGraph {message : String} {c₁ : Conn (App σ)}
      (hfound : findNewGraph w 10 c = .ok (.error message) c₁)
      (hsearched : Searched w quads c 10 (.error message)) :
      Uploaded w quads c (.error (.internalServerError, message))
  | refused {g : Node} {failure : Status × String} {c₁ c₂ : Conn (App σ)}
      (hfound : findNewGraph w 10 c = .ok (.ok g) c₁)
      (hupload : uploadStream w (some g) c₁ = .ok (.error failure) c₂)
      (hstatus : failure.1 = .badRequest ∨ failure.1 = .internalServerError) :
      Uploaded w quads c (.error failure)
  | stream {g : Node} {stream : Stream T} {c₁ c₂ : Conn (App σ)}
      (hfound : findNewGraph w 10 c = .ok (.ok g) c₁)
      (hsearched : Searched w quads c 10 (.ok g))
      (hupload : uploadStream w (some g) c₁ = .ok (.ok stream) c₂) :
      Uploaded w quads c (.ok (g, stream))

/-- The part in front of the addition never faults, and it only reads. -/
lemma newGraphUpload_uploaded (hw : NamedAdditions w quads) (c : Conn (App σ)) :
    ∃ result c₁, newGraphUpload w c = .ok result c₁ ∧ Reads w c c₁ ∧
      Uploaded w quads c result := by
  obtain ⟨found, c₁, hfound, hsearched⟩ := findNewGraph_searched hw 10 c
  obtain ⟨found', c₁', hfound', hreads⟩ := findNewGraph_reads (w := w) (c := c) 10 .refl
  obtain ⟨rfl, rfl⟩ := (EStateM.Result.ok.injEq ..).mp (hfound.symm.trans hfound')
  rw [newGraphUpload, bind_of_ok hfound]
  cases found with
  | error message => exact ⟨_, c₁, rfl, hreads, .noGraph hfound hsearched⟩
  | ok g =>
    obtain ⟨result, c₂, hupload, hreads₂, hstatus⟩ := uploadStream_reads (some g) hreads
    dsimp only
    rw [bind_of_ok hupload]
    cases result with
    | error failure =>
      exact ⟨_, c₂, rfl, hreads₂, .refused hfound hupload (hstatus failure rfl)⟩
    | ok stream => exact ⟨_, c₂, rfl, hreads₂, .stream hfound hsearched hupload⟩

lemma Reads.quads_of_named (hw : NamedAdditions w quads) (h : Reads w c c₁) :
    quads c₁.app.storage = quads c.app.storage := by
  induction h with
  | refl => rfl
  | request _ _ _ ih => exact ih
  | baseId _ _ ih => exact ih
  | contains _ graph ih => rw [called_storage, (hw.contains _ _).1, ih]
  | newParser _ name ih => rw [called_storage, hw.newParser, ih]
  | parseString _ name data base ih => rw [called_storage, hw.parse, ih]
  | parse _ name uri base ih => rw [called_storage, hw.parseUri, ih]

/-! ### The page -/

/-- The message pages of a request are in HTML. -/
def HtmlPages (r : Request) : Prop := ∃ f ∈ htmlFormats, messageFormat r = .ok (some f)

lemma errorTexts_eq_nil_iff {messages : List LogMessage} :
    errorTexts messages = [] ↔ ¬ HasError messages := by
  rw [errorTexts, List.flatMap_eq_nil_iff, HasError]
  constructor
  · rintro h ⟨m, hm, hlevel⟩
    have hempty := h m (List.mem_filter.mpr ⟨hm, by simpa using hlevel⟩)
    simp [errorText, bytesOf] at hempty
  · intro h m hm
    obtain ⟨hmem, hlevel⟩ := List.mem_filter.mp hm
    exact absurd ⟨m, hmem, by simpa using hlevel⟩ h

/-- The error buffer has a string if nothing has been logged or an error has. -/
lemma bufferReadable_iff (hw : NamedAdditions w quads) {app : App σ} (h : Buffered app) :
    BufferReadable w app ↔ ErrorOrNothing app.logged := by
  rw [BufferReadable, h, bufferOf, ErrorOrNothing]
  by_cases hnil : app.logged = []
  · simp [hnil]
  · simp [hnil, hw.text, errorTexts_eq_nil_iff]

/-- A page is given if a format is found for it, and in HTML if besides nothing has been logged
or an error has. -/
lemma page_given_iff (hw : NamedAdditions w quads) (h : Buffered c.app) (code : Status)
    (message : List UInt8) :
    (∃ response c', redstorePageNewWithMessage w code message c = .ok response c') ↔
      CanAnswer c.request ∧ (HtmlPages c.request → ErrorOrNothing c.app.logged) := by
  rw [← bufferReadable_iff hw h]
  constructor
  · rintro ⟨response, c', hpage⟩
    refine ⟨canAnswer_of_ok hpage, ?_⟩
    rintro ⟨f, hf, hformat⟩
    by_contra hbuffer
    rw [pageNewWithMessage_eq hformat] at hpage
    simp only [hf, if_true, htmlMessagePage_error hbuffer] at hpage
    cases hpage
  · rintro ⟨hanswer, hbuffer⟩
    obtain ⟨response, hpage, -⟩ : ∃ response,
        redstorePageNewWithMessage w code message c = .ok response (looked c) ∧
          response.status = code := pageNewWithMessage_ok hanswer hbuffer
    exact ⟨response, looked c, hpage⟩

/-- A page leaves the store alone, also when it cannot be given. -/
lemma storage_page (code : Status) (message : List UInt8) (c : Conn (App σ)) :
    (stateOf (redstorePageNewWithMessage w code message c)).app.storage = c.app.storage := by
  cases hformat : messageFormat c.request with
  | error e =>
    rw [messageFormat] at hformat
    simp [redstorePageNewWithMessage, bind_apply, hformat]
  | ok format =>
    rw [pageNewWithMessage_eq hformat]
    cases format with
    | none => rfl
    | some f =>
      dsimp only
      split
      · by_cases hbuffer : BufferReadable w c.app
        · have hgiven : ∃ response, htmlMessagePage w code message c = .ok response (looked c) ∧
              response.status = code := htmlMessagePage_ok hbuffer
          obtain ⟨response, hpage, -⟩ := hgiven
          rw [hpage]
          rfl
        · rw [htmlMessagePage_error hbuffer]
          rfl
      · have hgiven : ∃ response, textMessagePage w code message c = .ok response (looked c) ∧
            response.status = code := textMessagePage_ok
        obtain ⟨response, hpage, -⟩ := hgiven
        rw [hpage]
        rfl

/-- The connection after the triples have been added to their graph. -/
def addedConn (w : World T R σ) (g : Node) (stream : Stream T) (c : Conn (App σ)) :
    Conn (App σ) :=
  called c (w.contextAddStatements (some g) stream c.app.storage)

lemma storage_map {α β : Type} (f : α → β) (x : ServiceM σ α) (c : Conn (App σ)) :
    (stateOf ((f <$> x) c)).app.storage = (stateOf (x c)).app.storage := by
  change (stateOf ((x >>= fun a => pure (f a)) c)).app.storage = _
  rw [bind_apply]
  cases x c <;> rfl

lemma storage_loadStreamIntoNewGraph (g : Node) (stream : Stream T) (c : Conn (App σ)) :
    (stateOf (loadStreamIntoNewGraph w stream (some g) c)).app.storage =
      (addedConn w g stream c).app.storage := by
  rw [loadStreamIntoNewGraph_eq]
  dsimp only
  split
  · exact storage_page _ _ _
  · split
    · exact storage_page _ _ _
    · rw [storage_map]
      exact storage_page _ _ _

/-! ### What is answered -/

/-- Every graph that had quads still has the same ones. -/
def OthersKept (quads : σ → Set (T × Option Node)) (s s' : σ) : Prop :=
  ∀ g, (content (quads s) g).Nonempty → content (quads s') g = content (quads s) g

/-- The answer is 201, with the URI of a graph that had no quads and to which alone the triples
of the upload have been added. -/
def CreatedGraph (w : World T R σ) (quads : σ → Set (T × Option Node)) (c : Conn (App σ))
    (response : Response) (c' : Conn (App σ)) : Prop :=
  response.status = .created ∧ ∃ u stream c₁ c₂,
    findNewGraph w 10 c = .ok (.ok (.uri u)) c₁ ∧
    uploadStream w (some (.uri u)) c₁ = .ok (.ok stream) c₂ ∧
    redhttpHeadersGet response.headers (CString.lit "Location") = some u ∧
    content (quads c.app.storage) (some (.uri u)) = ∅ ∧
    quads c'.app.storage =
      Dataset.add (quads c.app.storage) (some (.uri u)) (triplesOf stream)

/-- The answer is an error, and the store is as before if no graph has been found. -/
def RefusedPost (w : World T R σ) (quads : σ → Set (T × Option Node)) (c : Conn (App σ))
    (response : Response) (c' : Conn (App σ)) : Prop :=
  400 ≤ response.status.code ∧ response.status.code < 600 ∧
    ∀ message c₁, findNewGraph w 10 c = .ok (.error message) c₁ →
      quads c'.app.storage = quads c.app.storage

/-- Why a POST may fail: no graph has been found, for want of a node or of an identifier that is
not in use; the upload has not come to a stream of triples; they could not be added; or Redland
has logged an error on the way. -/
inductive PostFailed (w : World T R σ) (quads : σ → Set (T × Option Node)) (c : Conn (App σ)) :
    Prop where
  | noGraph {message : String} {c₁ : Conn (App σ)}
      (hfound : findNewGraph w 10 c = .ok (.error message) c₁)
      (hsearched : Searched w quads c 10 (.error message))
  | refused {g : Node} {failure : Status × String} {c₁ c₂ : Conn (App σ)}
      (hfound : findNewGraph w 10 c = .ok (.ok g) c₁)
      (hupload : uploadStream w (some g) c₁ = .ok (.error failure) c₂)
  | notAdded {g : Node} {stream : Stream T} {c₁ : Conn (App σ)}
      (hupload : newGraphUpload w c = .ok (.ok (g, stream)) c₁)
      (hadd : (w.contextAddStatements (some g) stream c₁.app.storage).value = true)
  | errorLogged {g : Node} {stream : Stream T} {c₁ : Conn (App σ)}
      (hupload : newGraphUpload w c = .ok (.ok (g, stream)) c₁)
      (herror : HasError (addedConn w g stream c₁).app.logged)

/-- The triples of the upload are added to a graph that is found for them. -/
def Loads (w : World T R σ) (c : Conn (App σ)) : Prop :=
  ∃ g stream c₁, newGraphUpload w c = .ok (.ok (g, stream)) c₁ ∧
    (w.contextAddStatements (some g) stream c₁.app.storage).value = false

/-- The connection that the page of the answer is made for. -/
def pageConn (w : World T R σ) (c : Conn (App σ)) : Conn (App σ) :=
  match newGraphUpload w c with
  | .ok (.ok (g, stream)) c₁ => addedConn w g stream c₁
  | .ok (.error _) c₁ => c₁
  | .error _ c₁ => c₁

/-- A format is found for the answer, and where it is in HTML, or where the triples are added,
Redland has logged nothing on the way or an error. -/
def PostReady (w : World T R σ) (c : Conn (App σ)) : Prop :=
  CanAnswer c.request ∧
    (HtmlPages c.request ∨ Loads w c → ErrorOrNothing (pageConn w c).app.logged)

lemma Searched.free {g : Node} {attempts : ℕ} (h : Searched w quads c attempts (.ok g)) :
    content (quads c.app.storage) (some g) = ∅ := by
  cases h with
  | found _ _ _ hfree => exact hfree

/-- Whatever becomes of a POST, the graphs with quads keep them. -/
lemma postToNewGraph_othersKept (hw : NamedAdditions w quads) (c : Conn (App σ)) :
    OthersKept quads c.app.storage (stateOf (postToNewGraph w c)).app.storage := by
  obtain ⟨result, c₁, hrun, hreads, huploaded⟩ := newGraphUpload_uploaded hw c
  rw [postToNewGraph_eq, bind_of_ok hrun]
  intro g' hg'
  cases result with
  | error failure =>
    rw [finishUpload, storage_page, hreads.quads_of_named hw]
  | ok upload =>
    obtain ⟨g, stream⟩ := upload
    have hfree : content (quads c.app.storage) (some g) = ∅ := by
      cases huploaded with
      | stream _ hsearched _ => exact hsearched.free
    have hne : g' ≠ some g := by
      rintro rfl
      rw [hfree] at hg'
      exact Set.not_nonempty_empty hg'
    rw [finishUpload, storage_loadStreamIntoNewGraph, addedConn, called_storage,
      hw.kept _ _ _ _ hne, hreads.quads_of_named hw]

lemma htmlPages_congr {r r' : Request} (hheaders : r.headers = r'.headers)
    (harguments : r.arguments = r'.arguments) : HtmlPages r ↔ HtmlPages r' := by
  rw [HtmlPages, HtmlPages, messageFormat_congr hheaders harguments]

/-- A page with an error refuses a POST, if the store is as before without a graph. -/
lemma refusedPost_of_page {cp : Conn (App σ)} {code : Status} {message : List UInt8}
    {response : Response} (hcode : code = .badRequest ∨ code = .internalServerError)
    (hquads : ∀ message c₁, findNewGraph w 10 c = .ok (.error message) c₁ →
      quads cp.app.storage = quads c.app.storage)
    (h : redstorePageNewWithMessage w code message cp = .ok response c') :
    RefusedPost w quads c response c' := by
  obtain ⟨hstatus, rfl⟩ := pageNewWithMessage_of_ok h
  refine ⟨?_, ?_, fun message c₁ hfound => ?_⟩
  · rw [hstatus]
    rcases hcode with rfl | rfl <;> decide
  · rw [hstatus]
    rcases hcode with rfl | rfl <;> decide
  · rw [looked_storage]
    exact hquads message c₁ hfound

/-- A graph that is found has a URI. -/
lemma Searched.uri (hw : NamedAdditions w quads) {g : Node} {attempts : ℕ}
    (h : Searched w quads c attempts (.ok g)) : ∃ u, g = .uri u ∧ u.strlen ≠ 0 := by
  cases h with
  | @found i _ _ _ hg _ =>
    rw [triedGraph, graphNodeFor] at hg
    cases hbase : c.request.currentUrl.bind w.newUri with
    | none => simp [hbase] at hg
    | some base =>
      simp only [hbase] at hg
      obtain ⟨u, hu, hnode⟩ := Option.bind_eq_some_iff.mp hg
      exact ⟨u, hw.node u g hnode, hw.resolved _ _ u hu⟩

/-- An answer as it should be. -/
def PostSound (w : World T R σ) (quads : σ → Set (T × Option Node)) (c : Conn (App σ)) : Prop :=
  ∃ response c', postToNewGraph w c = .ok response c' ∧
    (CreatedGraph w quads c response c' ∨
      RefusedPost w quads c response c' ∧ PostFailed w quads c)

/-- Whatever is answered is a new graph or a refusal. -/
def PostSafe (w : World T R σ) (quads : σ → Set (T × Option Node)) (c : Conn (App σ)) : Prop :=
  ∀ response c', postToNewGraph w c = .ok response c' →
    CreatedGraph w quads c response c' ∨ RefusedPost w quads c response c'

/-- A POST that is given a page with an error, for a reason. -/
lemma answered_of_page (hw : NamedAdditions w quads) {cp : Conn (App σ)} {code : Status}
    {message : List UInt8} (hcp : cp.request.headers = c.request.headers ∧
      cp.request.arguments = c.request.arguments ∧ Buffered cp.app)
    (hcode : code = .badRequest ∨ code = .internalServerError)
    (hquads : ∀ message c₁, findNewGraph w 10 c = .ok (.error message) c₁ →
      quads cp.app.storage = quads c.app.storage)
    (hrun : postToNewGraph w c = redstorePageNewWithMessage w code message cp) :
    PostSafe w quads c ∧ (PostSound w quads c ↔ PostFailed w quads c ∧ CanAnswer c.request ∧
      (HtmlPages c.request → ErrorOrNothing cp.app.logged)) := by
  have hrefused : ∀ response c', postToNewGraph w c = .ok response c' →
      RefusedPost w quads c response c' := by
    intro response c' h
    rw [hrun] at h
    exact refusedPost_of_page hcode hquads h
  have hgiven := page_given_iff hw hcp.2.2 code message
  rw [canAnswer_congr hcp.1 hcp.2.1, htmlPages_congr hcp.1 hcp.2.1] at hgiven
  refine ⟨fun response c' h => Or.inr (hrefused response c' h), ?_⟩
  rw [← hgiven]
  constructor
  · rintro ⟨response, c', h, hcreated | ⟨-, hfailed⟩⟩
    · have hstatus := hcreated.1
      rw [hrun] at h
      rw [(pageNewWithMessage_of_ok h).1] at hstatus
      rcases hcode with rfl | rfl <;> cases hstatus
    · exact ⟨hfailed, response, c', hrun ▸ h⟩
  · rintro ⟨hfailed, response, c', h⟩
    rw [← hrun] at h
    exact ⟨response, c', h, Or.inr ⟨hrefused response c' h, hfailed⟩⟩

/-- A POST that comes to no triples is refused if its page can be given. -/
lemma answered_of_error (hw : NamedAdditions w quads) (hbuffered : Buffered c.app)
    {failure : Status × String} (hrun : newGraphUpload w c = .ok (.error failure) c₁)
    (hreads : Reads w c c₁) (huploaded : Uploaded w quads c (.error failure)) :
    PostSafe w quads c ∧ (PostSound w quads c ↔ PostReady w c) := by
  have hpage : pageConn w c = c₁ := by rw [pageConn, hrun]
  have hloads : ¬ Loads w c := by
    rintro ⟨g, stream, c₂, hrun', -⟩
    cases hrun.symm.trans hrun'
  have hpost : postToNewGraph w c =
      redstorePageNewWithMessage w failure.1 (bytesOf failure.2) c₁ := by
    rw [postToNewGraph_eq, bind_of_ok hrun]
    rfl
  obtain ⟨hfailed, hcode⟩ : PostFailed w quads c ∧
      (failure.1 = .badRequest ∨ failure.1 = .internalServerError) := by
    cases huploaded with
    | noGraph hfound hsearched => exact ⟨.noGraph hfound hsearched, Or.inr rfl⟩
    | refused hfound hupload hstatus => exact ⟨.refused hfound hupload, hstatus⟩
  obtain ⟨hsafe, hsound⟩ := answered_of_page hw
    ⟨hreads.headers, hreads.arguments, hreads.buffered hbuffered⟩ hcode
    (fun _ _ _ => hreads.quads_of_named hw) hpost
  exact ⟨hsafe, by rw [hsound, PostReady, hpage, or_iff_left hloads, and_iff_right hfailed]⟩

lemma addedConn_spec (hreads : Reads w c c₁) (hbuffered : Buffered c.app) (g : Node)
    (stream : Stream T) : (addedConn w g stream c₁).request.headers = c.request.headers ∧
      (addedConn w g stream c₁).request.arguments = c.request.arguments ∧
      Buffered (addedConn w g stream c₁).app :=
  ⟨hreads.headers, hreads.arguments, (hreads.buffered hbuffered).afterCall _⟩

/-- With a stream, a graph has been found. -/
lemma found_of_stream {g : Node} {stream : Stream T}
    (huploaded : Uploaded w quads c (.ok (g, stream))) {message : String}
    {c₂ : Conn (App σ)} : findNewGraph w 10 c ≠ .ok (.error message) c₂ := by
  intro hfound
  cases huploaded with
  | stream hfound' _ _ => cases hfound'.symm.trans hfound

section Stream

variable {g : Node} {stream : Stream T} (hw : NamedAdditions w quads)
  (hrun : newGraphUpload w c = .ok (.ok (g, stream)) c₁) (hreads : Reads w c c₁)

include hrun

lemma pageConn_of_stream : pageConn w c = addedConn w g stream c₁ := by rw [pageConn, hrun]

lemma loads_iff : Loads w c ↔
    (w.contextAddStatements (some g) stream c₁.app.storage).value = false := by
  constructor
  · rintro ⟨g', stream', c₂, hrun', hadd⟩
    cases hrun.symm.trans hrun'
    exact hadd
  · exact fun hadd => ⟨g, stream, c₁, hrun, hadd⟩

variable (huploaded : Uploaded w quads c (.ok (g, stream)))
include huploaded
include hw hreads

/-- A POST whose triples cannot be added is refused if its page can be given. -/
lemma answered_of_notAdded (hbuffered : Buffered c.app)
    (hadd : (w.contextAddStatements (some g) stream c₁.app.storage).value = true) :
    PostSafe w quads c ∧ (PostSound w quads c ↔ PostReady w c) := by
  have hloads : ¬ Loads w c := by
    rw [loads_iff hrun, hadd]
    simp
  have hpost : postToNewGraph w c = redstorePageNewWithMessage w .internalServerError
      (bytesOf "Failed to add triples to graph.") (addedConn w g stream c₁) := by
    rw [postToNewGraph_eq, bind_of_ok hrun, finishUpload, loadStreamIntoNewGraph_eq]
    exact if_pos hadd
  obtain ⟨hsafe, hsound⟩ := answered_of_page hw (addedConn_spec hreads hbuffered _ _)
    (Or.inr rfl) (fun _ _ h => absurd h (found_of_stream huploaded)) hpost
  refine ⟨hsafe, ?_⟩
  rw [hsound, PostReady, pageConn_of_stream hrun, or_iff_left hloads,
    and_iff_right (PostFailed.notAdded hrun hadd)]

variable (hadd : (w.contextAddStatements (some g) stream c₁.app.storage).value = false)
include hadd

/-- The triples are added and nothing has been logged: the graph is created. -/
lemma answered_of_silent (hbuffered : Buffered c.app)
    (hsilent : (addedConn w g stream c₁).app.logged = []) :
    PostSafe w quads c ∧ (PostSound w quads c ↔ PostReady w c) := by
  obtain ⟨u, rfl, hu⟩ : ∃ u, g = .uri u ∧ u.strlen ≠ 0 := by
    cases huploaded with
    | stream _ hsearched _ => exact hsearched.uri hw
  have hspec := addedConn_spec hreads hbuffered (.uri u) stream
  have hpage := pageConn_of_stream hrun
  set c₂ := addedConn w (.uri u) stream c₁ with hc₂
  have hbuffer : c₂.app.errorBuffer = none := by
    rw [hspec.2.2, hsilent]
    rfl
  have hpost : postToNewGraph w c =
      ((fun response => redhttpResponseAddHeader response HeaderName.location (some u)) <$>
        redstorePageNewWithMessage w .created
          (bytesOf "Successfully added triples to new graph: " ++ shown (some u)))
        (looked c₂) := by
    rw [postToNewGraph_eq, bind_of_ok hrun, finishUpload, loadStreamIntoNewGraph_eq]
    simp only [hadd, Bool.false_eq_true, if_false]
    rw [← addedConn, ← hc₂, hbuffer]
    rfl
  have hcreated : ∀ response c', postToNewGraph w c = .ok response c' →
      CreatedGraph w quads c response c' := by
    intro response c' h
    rw [hpost] at h
    obtain ⟨page, hgiven, rfl⟩ := map_eq_ok_iff.mp h
    obtain ⟨hcode, rfl⟩ := pageNewWithMessage_of_ok hgiven
    have hmessage : MessagePage page := (messageResponse_of_ok hgiven).1.messagePage
    have hstored : quads (looked (looked c₂)).app.storage =
        Dataset.add (quads c.app.storage) (some (.uri u)) (triplesOf stream) := by
      rw [looked_storage, looked_storage, hc₂, addedConn, called_storage, hw.added _ _ _ hadd,
        hreads.quads_of_named hw]
    refine ⟨hcode, u, stream, ?_⟩
    cases huploaded with
    | stream hfound hsearched hupload =>
      exact ⟨_, _, hfound, hupload, location_of_messagePage hmessage hu, hsearched.free, hstored⟩
  have hnothing : ErrorOrNothing c₂.app.logged := Or.inl hsilent
  have hgiven := page_given_iff (c := looked c₂) hw hspec.2.2 .created
    (bytesOf "Successfully added triples to new graph: " ++ shown (some u))
  rw [looked_request, looked_logged, canAnswer_congr hspec.1 hspec.2.1] at hgiven
  refine ⟨fun response c' h => Or.inl (hcreated response c' h), ?_⟩
  rw [PostReady, hpage]
  simp only [hnothing, implies_true, and_true] at hgiven ⊢
  rw [← hgiven]
  constructor
  · rintro ⟨response, c', h, -⟩
    rw [hpost] at h
    obtain ⟨page, hmade, -⟩ := map_eq_ok_iff.mp h
    exact ⟨page, c', hmade⟩
  · rintro ⟨page, c', h⟩
    have hanswer := hpost.trans (map_eq_ok_iff.mpr ⟨page, h, rfl⟩)
    exact ⟨_, c', hanswer, Or.inl (hcreated _ c' hanswer)⟩

/-- The triples are added and something has been logged: the answer is an error, which is right
if an error has been logged. -/
lemma answered_of_logged (hbuffered : Buffered c.app)
    (hlogged : (addedConn w g stream c₁).app.logged ≠ []) :
    PostSafe w quads c ∧ (PostSound w quads c ↔ PostReady w c) := by
  have hspec := addedConn_spec hreads hbuffered g stream
  have hpost : postToNewGraph w c = redstorePageNewWithMessage w .internalServerError
      (bytesOf "Error while adding triples to new graph: " ++ shown g.getUri)
        (looked (addedConn w g stream c₁)) := by
    rw [postToNewGraph_eq, bind_of_ok hrun, finishUpload, loadStreamIntoNewGraph_eq]
    simp only [hadd, Bool.false_eq_true, if_false]
    rw [← addedConn, if_pos (hspec.2.2.isSome_iff.mpr hlogged)]
    rfl
  have hlooked : (looked (addedConn w g stream c₁)).request.headers = c.request.headers ∧
      (looked (addedConn w g stream c₁)).request.arguments = c.request.arguments ∧
      Buffered (looked (addedConn w g stream c₁)).app := hspec
  obtain ⟨hsafe, hsound⟩ := answered_of_page hw hlooked (Or.inr rfl)
    (fun _ _ h => absurd h (found_of_stream huploaded)) hpost
  have hloads : Loads w c := (loads_iff hrun).mpr hadd
  have herror : ErrorOrNothing (addedConn w g stream c₁).app.logged ↔
      HasError (addedConn w g stream c₁).app.logged := or_iff_right hlogged
  -- everything has gone well but for what has been logged
  have hfailed : PostFailed w quads c ↔ HasError (addedConn w g stream c₁).app.logged := by
    constructor
    · intro hfailed
      cases hfailed with
      | noGraph hfound _ => exact absurd hfound (found_of_stream huploaded)
      | refused hfound hupload =>
        cases huploaded with
        | stream hfound' _ hupload' =>
          cases hfound.symm.trans hfound'
          cases hupload.symm.trans hupload'
      | notAdded hrun' hadd' =>
        cases hrun.symm.trans hrun'
        cases hadd.symm.trans hadd'
      | errorLogged hrun' herror' =>
        cases hrun.symm.trans hrun'
        exact herror'
    · exact fun herror' => .errorLogged hrun herror'
  refine ⟨hsafe, ?_⟩
  rw [hsound, PostReady, pageConn_of_stream hrun, hfailed, looked_logged, herror]
  simp only [hloads, or_true, true_imp_iff]
  exact ⟨fun h => ⟨h.2.1, h.1⟩, fun h => ⟨h.2, h.1, fun _ => h.2⟩⟩

end Stream

/-- A POST to a graph of its own is answered as it should be exactly if it is ready. -/
lemma postSound_iff (hw : NamedAdditions w quads) (hbuffered : Buffered c.app) :
    PostSafe w quads c ∧ (PostSound w quads c ↔ PostReady w c) := by
  obtain ⟨result, c₁, hrun, hreads, huploaded⟩ := newGraphUpload_uploaded hw c
  cases result with
  | error failure => exact answered_of_error hw hbuffered hrun hreads huploaded
  | ok upload =>
    obtain ⟨g, stream⟩ := upload
    cases hadd : (w.contextAddStatements (some g) stream c₁.app.storage).value with
    | true => exact answered_of_notAdded hw hrun hreads huploaded hbuffered hadd
    | false =>
      by_cases hsilent : (addedConn w g stream c₁).app.logged = []
      · exact answered_of_silent hw hrun hreads huploaded hadd hbuffered hsilent
      · exact answered_of_logged hw hrun hreads huploaded hadd hbuffered hsilent

/-! ### The answer to a POST -/

lemma dispatchRequest_newGraph (hmethod : c.request.method = some (CString.lit "POST"))
    (hpath : c.request.path = some (CString.lit "/data")) (hglob : c.request.pathGlob = .null)
    (hgraph : hasGraph c.request = false) (hdefault : hasDefault c.request = false) :
    dispatchRequest w c = (some <$> postToNewGraph w) (dataConn c default) := by
  have hsuffix : CString.lit "/data" = CString.lit "/data" ++ default := by decide
  rw [hsuffix] at hpath
  rw [dispatchRequest_data (m := .post) hmethod hpath hglob]
  exact handleDataPost_of_neither hgraph rfl hdefault

lemma memoryWorld_namedAdditions : NamedAdditions memoryWorld memoryQuads where
  node _ _ h := (Option.some.inj h).symm
  resolved base n u h := by
    rw [← Option.some.inj h]
    exact newGraphUri_strlen base n
  text buffer := by simp [memoryWorld]
  contains g s := by
    refine ⟨rfl, ?_⟩
    simp [memoryWorld, Set.Nonempty, memoryQuads]
  newParser _ _ := rfl
  parse _ _ _ _ := rfl
  parseUri _ _ _ _ := rfl
  added _ _ _ _ := memoryQuads_add _ _ _
  kept _ _ _ _ hne := by rw [memoryQuads_add, content_add_of_ne hne]

/-- A parser that warns is as good as one that does not. -/
lemma warningWorld_namedAdditions : NamedAdditions warningWorld memoryQuads :=
  { memoryWorld_namedAdditions with parse := fun _ _ _ _ => rfl }

/-- A POST of a triple to `/data`, with further headers. -/
def postOf (headers : List Header) : Request where
  headers := ⟨CString.lit "Content-Length", some (CString.lit "2")⟩ :: headers
  socket := { input := bytesOf "a." }
  host := some (CString.lit "localhost")
  method := some (CString.lit "POST")
  pathAndQuery := some (CString.lit "/data")
  path := some (CString.lit "/data")
  version := some (CString.lit "1.0")

end RedStore.Service
