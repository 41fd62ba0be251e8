/-
The graph that a form names, and the graph that the graph store names.

`get_graph_node` resolves its graph argument against the URL of the request.  The forms for
inserting and deleting triples make a node of theirs as it stands.  For an absolute URI that is
the same node, and what is inserted is found by GET; a relative one names two graphs.
-/
import RedStore.Service.GraphNames
import RedStore.Service.UpdateErrors

namespace RedStore.Service
open CLib RedHttp

variable {T R σ : Type}

/-! ### Names -/

/-- A URI with a scheme. -/
def Absolute (u : CString) : Prop := (Rfc3986.parse u.bytes).scheme.isSome = true

instance (u : CString) : Decidable (Absolute u) := inferInstanceAs (Decidable (_ = _))

/-- URIs can be made of any string, and are resolved as RFC 3986 says, unless they are absolute
already. -/
structure ResolvingUris (w : World T R σ) : Prop where
  newUri : ∀ u, u.bytes ≠ [] → w.newUri u = some u
  absolute : ∀ base ref, Absolute ref → w.newUriRelativeToBase base ref = some ref
  relative : ∀ base ref, ¬ Absolute ref → w.newUriRelativeToBase base ref =
    some (CString.ofBytes (Rfc3986.resolve base.bytes ref.bytes))
  node : ∀ u, w.newNodeFromUri u = some (.uri u)
  nodeOfString : ∀ u, u.bytes ≠ [] → w.newNodeFromUriString u = some (.uri u)

/-- The graph that `handle_insert_post` and `handle_delete_post` work on. -/
def formGraph (w : World T R σ) (r : Request) : Option Node :=
  (graphArgumentNode w (r.getArgument (CString.lit "graph"))).join

/-- A POST of one of the forms, with a graph. -/
structure FormPost (r : Request) (path : String) (g : CString) : Prop where
  method : r.method = some (CString.lit "POST")
  path : r.path = some (CString.lit path)
  graph : r.getArgument (CString.lit "graph") = some g

/-- A GET of a graph by its name. -/
structure GraphGet (r : Request) (g : CString) : Prop where
  method : r.method = some (CString.lit "GET")
  path : ∃ suffix, r.path = some (CString.lit "/data" ++ suffix)
  glob : r.pathGlob = .null
  fresh : r.url = none
  target : ∃ target, r.pathAndQuery = some target
  graph : r.getArgument (CString.lit "graph") = some g
  notDefault : hasDefault r = false

section Names

variable {w : World T R σ} {r : Request} {g : CString} {path : String}

lemma formGraph_eq (hw : ResolvingUris w) (hg : g.bytes ≠ []) (h : FormPost r path g) :
    formGraph w r = some (.uri g) := by
  rw [formGraph, h.graph, graphArgumentNode, hw.nodeOfString g hg]
  rfl

lemma GraphGet.requestNode_eq (hw : ResolvingUris w) (h : GraphGet r g) :
    ∃ target, requestNode w r = some (.uri (if Absolute g then g
      else CString.ofBytes (Rfc3986.resolve (targetUrl r target).bytes g.bytes))) := by
  obtain ⟨target, htarget⟩ := h.target
  have hurl : r.currentUrl = some (targetUrl r target) := by
    simp only [Request.currentUrl, h.fresh, htarget, Option.none_or, Option.map_some, targetUrl]
  have hne : (targetUrl r target).bytes ≠ [] := by
    simp [targetUrl, CString.lit, CString.ofBytes, bytesOf, ch]
  refine ⟨target, ?_⟩
  rw [requestNode, graphNodeFor, hurl, Option.bind_some, hw.newUri _ hne, h.graph]
  by_cases habsolute : Absolute g
  · simp only [hw.absolute _ _ habsolute, Option.bind_some, hw.node, if_pos habsolute]
  · simp only [hw.relative _ _ habsolute, Option.bind_some, hw.node, if_neg habsolute]

/-- A relative reference is not what it is resolved to. -/
lemma resolve_ne_of_relative {target : CString} (h : ¬ Absolute g) :
    CString.ofBytes (Rfc3986.resolve (targetUrl r target).bytes g.bytes) ≠ g := by
  have hscheme : (Rfc3986.parse g.bytes).scheme = none := by
    rw [Absolute, Option.isSome_iff_ne_none, not_not] at h
    exact h
  have hbase : (targetUrl r target).bytes = bytesOf "http" ++ ch ':' ::
      (bytesOf "//" ++ r.currentHost.bytes ++ target.bytes) := rfl
  obtain ⟨rest, hrest⟩ : ∃ rest, Rfc3986.resolve (bytesOf "http" ++ ch ':' ::
      (bytesOf "//" ++ r.currentHost.bytes ++ target.bytes)) g.bytes =
        bytesOf "http" ++ ch ':' :: rest :=
    Rfc3986.resolve_of_relative (by decide) _ hscheme
  intro heq
  have hbytes := congrArg CString.bytes heq
  rw [CString.bytes_ofBytes_of_not_mem (resolve_nul_free _ _), hbase, hrest] at hbytes
  rw [← hbytes, Rfc3986.scheme_parse_of_colon (by decide)] at hscheme
  cases hscheme

/-- A form and a GET name one graph exactly by an absolute URI. -/
lemma formGraph_eq_requestNode_iff (hw : ResolvingUris w) (hg : g.bytes ≠ []) {r' : Request}
    (hform : FormPost r path g) (hget : GraphGet r' g) :
    formGraph w r = requestNode w r' ↔ Absolute g := by
  obtain ⟨target, hnode⟩ := hget.requestNode_eq hw
  rw [formGraph_eq hw hg hform, hnode]
  constructor
  · intro heq
    by_contra hrelative
    rw [if_neg hrelative, Option.some.injEq, Node.uri.injEq] at heq
    exact resolve_ne_of_relative hrelative heq.symm
  · intro habsolute
    rw [if_pos habsolute]

end Names

/-! ### What is inserted, deleted and read -/

/-- What is relied on of Redland for reading: a graph is there if it has a triple, and what is
streamed are its triples. -/
structure ReadableGraphs (w : World T R σ) (quads : σ → Set (T × Option Node)) : Prop where
  contains : ∀ graph s, (w.containsContext graph s).value = true ↔
    (Dataset.content (quads s) (some graph)).Nonempty
  stream : ∀ graph s, ∃ stream, (w.contextAsStream graph s).value = some stream ∧
    triplesOf stream = Dataset.content (quads s) (some graph)

/-- A request is answered by formatting some triples. -/
def AnsweredWith (w : World T R σ) (c : Conn (App σ)) (ts : Set T) : Prop :=
  ∃ stream c₁, dispatchRequest w c = (some <$> formatGraphStream w stream) c₁ ∧
    triplesOf stream = ts

/-- The forms and the graph store mean one graph by a name.  What is inserted is found by GET,
whatever else the service has done that left the store as it was, and what is deleted is deleted
from the graph that GET reads. -/
structure GraphsAlike (w : World T R σ) (quads : σ → Set (T × Option Node))
    (insert delete get : Request) : Prop where
  inserts : formGraph w insert = requestNode w get
  deletes : formGraph w delete = requestNode w get
  inserted : ∀ app response c₁ app', dispatchRequest w ⟨insert, app⟩ = .ok (some response) c₁ →
    response.status = .ok → app'.storage = c₁.app.storage →
    ∃ graphNode stream streamProc c₂,
      Processes w (beforeHandlers ⟨insert, app⟩) .insert graphNode stream streamProc c₂ ∧
        ((triplesOf stream).Nonempty → ∃ ts, AnsweredWith w ⟨get, app'⟩ ts ∧ triplesOf stream ⊆ ts)
  deleted : ∀ app response c₁, dispatchRequest w ⟨delete, app⟩ = .ok (some response) c₁ →
    response.status = .ok → ∃ graphNode stream streamProc c₂ node,
      Processes w (beforeHandlers ⟨delete, app⟩) .delete graphNode stream streamProc c₂ ∧
        requestNode w get = some node ∧ quads c₁.app.storage =
          Dataset.remove (quads app.storage) (some node) (triplesOf stream)

section Alike

variable {w : World T R σ} {quads : σ → Set (T × Option Node)} {insert delete get : Request}
  {g : CString} {node : Node}

/-- A GET of a graph that has triples is answered with them. -/
lemma GraphGet.answeredWith (hs : ExactUpdates w quads) (hread : ReadableGraphs w quads)
    (h : GraphGet get g) (hnode : requestNode w get = some node) (app : App σ)
    (hne : (Dataset.content (quads app.storage) (some node)).Nonempty) :
    AnsweredWith w ⟨get, app⟩ (Dataset.content (quads app.storage) (some node)) := by
  obtain ⟨suffix, hpath⟩ := h.path
  have hgraph : hasGraph get = true := exists_of_get_eq_some h.graph
  have htarget : requestTarget w (dataConn ⟨get, app⟩ suffix).request = .graph node := by
    have hgraph' : hasGraph (dataConn ⟨get, app⟩ suffix).request = true := hgraph
    have hdefault' : hasDefault (dataConn ⟨get, app⟩ suffix).request = false := h.notDefault
    have hnode' : requestNode w (dataConn ⟨get, app⟩ suffix).request = some node := hnode
    simp [requestTarget, hgraph', hdefault', hnode']
  rw [AnsweredWith, dispatchRequest_data (c := ⟨get, app⟩) (m := .get) h.method hpath h.glob]
  change ∃ stream c₁, handleDataGet w _ = _ ∧ _
  rw [handleDataGet, withTarget_apply, htarget]
  dsimp only
  have hcontained : (w.containsContext node app.storage).value = true :=
    (hread.contains node app.storage).mpr hne
  obtain ⟨stream, hstream, hts⟩ := hread.stream node (w.containsContext node app.storage).storage
  rw [hs.contains] at hts
  refine ⟨stream, called (called (urlConn (dataConn ⟨get, app⟩ suffix))
    (w.containsContext node app.storage))
      (w.contextAsStream node (w.containsContext node app.storage).storage), ?_, hts⟩
  refine map_some_congr ?_
  have hcontained' : (w.containsContext node
      (urlConn (dataConn ⟨get, app⟩ suffix)).app.storage).value = true := hcontained
  rw [ifContained_apply, if_pos hcontained', formatStreamOf_apply, called_storage]
  have hstream' : (w.contextAsStream node (w.containsContext node
      (urlConn (dataConn ⟨get, app⟩ suffix)).app.storage).storage).value = some stream := hstream
  rw [hstream']
  rfl

/-- What processing a form comes to, with the graph that it works on. -/
lemma formGraph_of_processes {c c₂ : Conn (App σ)} {u : Update} {graphNode : Option Node}
    {stream : Stream T} {streamProc : StreamProcessor T σ}
    (h : Processes w c u graphNode stream streamProc c₂) (hu : u = .insert ∨ u = .delete)
    (hnode : formGraph w c.request = some node) : graphNode = some node := by
  have hjoin : ∀ {graph : Option (Option Node)}, graph = some graphNode →
      graph.join = some node → graphNode = some node := by
    rintro _ rfl hjoin
    exact hjoin
  cases h with
  | insert _ hgraph _ => exact hjoin hgraph hnode
  | delete _ hgraph _ => exact hjoin hgraph hnode
  | put _ _ => rcases hu with hu | hu <;> cases hu
  | post _ _ => rcases hu with hu | hu <;> cases hu
  | postDefault _ _ => rcases hu with hu | hu <;> cases hu
  | postNew _ _ => rcases hu with hu | hu <;> cases hu
  | load _ _ _ _ => rcases hu with hu | hu <;> cases hu

/-- A form that is answered with success has processed its triples, in the graph it names. -/
lemma form_processed (hs : ExactUpdates w quads) {r : Request} {u : Update}
    (hu : u = .insert ∨ u = .delete) {app : App σ} {response : Response} {c₁ : Conn (App σ)}
    (hconn : UpdateConn ⟨r, app⟩ u (beforeHandlers ⟨r, app⟩)) (hnode : formGraph w r = some node)
    (hrun : dispatchRequest w ⟨r, app⟩ = .ok (some response) c₁) (hok : response.status = .ok) :
    ∃ stream streamProc c₂,
      Processes w (beforeHandlers ⟨r, app⟩) u (some node) stream streamProc c₂ ∧
        quads c₁.app.storage = u.applied (some node) (triplesOf stream) (quads app.storage) := by
  have hbuffered : Buffered (beforeHandlers ⟨r, app⟩).app := buffered_of_reset rfl rfl
  rw [hconn.dispatch] at hrun
  have hcases : Refused w (beforeHandlers ⟨r, app⟩) response c₁ ∨
      ProcessedAfterReads w (beforeHandlers ⟨r, app⟩) u response c₁ := by
    rcases hu with rfl | rfl
    · obtain ⟨_, hresponse, hcases⟩ := handleContentPost_cases hrun
      obtain rfl := Option.some.inj hresponse
      refine hcases.imp_right ?_
      rintro ⟨content, graphNode, stream, c₂, hcontent, hgraph, hstream, hreads, hproc⟩
      exact ⟨graphNode, stream, _, c₂, .insert hcontent hgraph hstream, hreads, hproc⟩
    · obtain ⟨_, hresponse, hcases⟩ := handleContentPost_cases hrun
      obtain rfl := Option.some.inj hresponse
      refine hcases.imp_right ?_
      rintro ⟨content, graphNode, stream, c₂, hcontent, hgraph, hstream, hreads, hproc⟩
      exact ⟨graphNode, stream, _, c₂, .delete hcontent hgraph hstream, hreads, hproc⟩
  rcases hcases with hrefused | ⟨graphNode, stream, streamProc, c₂, hproc, hreads, hend⟩
  · rcases hrefused.status with hstatus | hstatus
    · rw [hok] at hstatus
      cases hstatus
    · rw [hok] at hstatus
      cases hstatus
  · obtain rfl := formGraph_of_processes hproc hu hnode
    obtain ⟨hquads, -⟩ := hproc.effect hs (hreads.buffered hbuffered) hend
    rw [hreads.quads_eq hs] at hquads
    exact ⟨stream, streamProc, c₂, hproc, hquads⟩

/-- The forms and the graph store mean one graph by a name exactly if it is an absolute URI. -/
theorem graphsAlike_iff (hw : ResolvingUris w) (hs : ExactUpdates w quads)
    (hread : ReadableGraphs w quads) (hg : g.bytes ≠ []) (hinsert : FormPost insert "/insert" g)
    (hdelete : FormPost delete "/delete" g) (hget : GraphGet get g) :
    GraphsAlike w quads insert delete get ↔ Absolute g := by
  constructor
  · exact fun h => (formGraph_eq_requestNode_iff hw hg hinsert hget).mp h.inserts
  · intro habsolute
    have hform := formGraph_eq hw hg hinsert
    have hform' := formGraph_eq hw hg hdelete
    have hsame := (formGraph_eq_requestNode_iff hw hg hinsert hget).mpr habsolute
    have hnode : requestNode w get = some (.uri g) := hsame.symm.trans hform
    refine ⟨hsame, hform'.trans hnode.symm, ?_, ?_⟩
    · intro app response c₁ app' hrun hok happ
      obtain ⟨stream, streamProc, c₂, hproc, hquads⟩ := form_processed hs (.inl rfl)
        (.insert hinsert.method hinsert.path) hform hrun hok
      have hadded : quads app'.storage =
          Dataset.add (quads app.storage) (some (.uri g)) (triplesOf stream) := happ ▸ hquads
      have hcontent : triplesOf stream ⊆ Dataset.content (quads app'.storage) (some (.uri g)) := by
        rw [hadded, Dataset.content_add_self]
        exact Set.subset_union_right
      exact ⟨_, stream, streamProc, c₂, hproc, fun hne =>
        ⟨_, hget.answeredWith hs hread hnode app' (hne.mono hcontent), hcontent⟩⟩
    · intro app response c₁ hrun hok
      obtain ⟨stream, streamProc, c₂, hproc, hquads⟩ := form_processed hs (.inr rfl)
        (.delete hdelete.method hdelete.path) hform' hrun hok
      exact ⟨_, stream, streamProc, c₂, _, hproc, hnode, hquads⟩

end Alike

/-! ### In memory -/

/-- The world in memory, with absolute references left as they are. -/
def formsWorld : World CString Unit MemoryStore :=
  { memoryWorld with
    newUriRelativeToBase base ref :=
      some (if Absolute ref then ref
        else CString.ofBytes (Rfc3986.resolve base.bytes ref.bytes)) }

lemma formsWorld_resolvingUris : ResolvingUris formsWorld where
  newUri _ h := if_neg h
  absolute _ _ h := congrArg some (if_pos h)
  relative _ _ h := congrArg some (if_neg h)
  node _ := rfl
  nodeOfString _ h := if_neg h

lemma formsWorld_exactUpdates : ExactUpdates formsWorld memoryQuads where
  newParser := memoryWorld_exactUpdates.newParser
  parseString := memoryWorld_exactUpdates.parseString
  parse := memoryWorld_exactUpdates.parse
  contains := memoryWorld_exactUpdates.contains
  stored := memoryWorld_exactUpdates.stored
  add := memoryWorld_exactUpdates.add
  clear := memoryWorld_exactUpdates.clear
  remove := memoryWorld_exactUpdates.remove
  removeNull := memoryWorld_exactUpdates.removeNull

lemma formsWorld_readableGraphs : ReadableGraphs formsWorld memoryQuads where
  contains graph s := by
    show s.any (fun quad => quad.2 = some graph) = true ↔ _
    simp only [List.any_eq_true, decide_eq_true_eq]
    constructor
    · rintro ⟨⟨t, _⟩, hmem, rfl⟩
      exact ⟨t, hmem⟩
    · rintro ⟨t, hmem⟩
      exact ⟨(t, some graph), hmem, rfl⟩
  stream graph s := by
    refine ⟨_, rfl, ?_⟩
    ext t
    show t ∈ streamObjects (streamOf ((s.filter fun quad => quad.2 = some graph).map Prod.fst)) ↔ _
    rw [streamObjects_streamOf, List.mem_map]
    constructor
    · rintro ⟨⟨t, g⟩, hmem, rfl⟩
      obtain ⟨hmem, hg⟩ := List.mem_filter.mp hmem
      rw [decide_eq_true_eq] at hg
      exact hg ▸ hmem
    · exact fun hmem => ⟨(t, some graph), List.mem_filter.mpr ⟨hmem, by simp⟩, rfl⟩

/-- A POST of a form with a triple for a graph. -/
def formPost (path graph : String) : Request where
  arguments := [⟨CString.lit "content", some (CString.lit "a.")⟩,
    ⟨CString.lit "graph", some (CString.lit graph)⟩]
  host := some (CString.lit "localhost")
  method := some (CString.lit "POST")
  pathAndQuery := some (CString.lit path)
  path := some (CString.lit path)
  version := some (CString.lit "1.0")

/-- A GET of a graph by its name. -/
def graphGet (graph : String) : Request :=
  getRequest "/data" ("graph=" ++ graph) [("graph", graph)]

theorem graphsAlike_absolute : GraphsAlike formsWorld memoryQuads (formPost "/insert" "http://g/a")
    (formPost "/delete" "http://g/a") (graphGet "http://g/a") := by
  have hget : GraphGet (graphGet "http://g/a") (CString.lit "http://g/a") :=
    ⟨rfl, ⟨default, by decide⟩, rfl, rfl, ⟨_, rfl⟩, by decide, by decide⟩
  exact (graphsAlike_iff formsWorld_resolvingUris formsWorld_exactUpdates formsWorld_readableGraphs
    (by decide) ⟨rfl, rfl, by decide⟩ ⟨rfl, rfl, by decide⟩ hget).mpr (by decide)

/-- What is inserted into the graph `foo` is not found in the graph `foo`. -/
theorem graphsAlike_relative :
    formGraph formsWorld (formPost "/insert" "foo") = some (.uri (CString.lit "foo")) ∧
      requestNode formsWorld (graphGet "foo") =
        some (.uri (CString.lit "http://localhost/foo")) ∧
      (match dispatchRequest formsWorld ⟨formPost "/insert" "foo", emptyApp⟩ with
        | .ok (some response) c => some (response.status,
          match dispatchRequest formsWorld ⟨graphGet "foo", c.app⟩ with
            | .ok (some response) _ => some response.status
            | _ => none)
        | _ => none) = some (.ok, some .notFound) ∧
      ¬ GraphsAlike formsWorld memoryQuads (formPost "/insert" "foo") (formPost "/delete" "foo")
        (graphGet "foo") := by
  have hform : formGraph formsWorld (formPost "/insert" "foo") = some (.uri (CString.lit "foo")) := by
    decide +kernel
  have hnode : requestNode formsWorld (graphGet "foo") =
      some (.uri (CString.lit "http://localhost/foo")) := by decide +kernel
  refine ⟨hform, hnode, by decide +kernel, fun h => ?_⟩
  have hsame := hform.symm.trans (h.inserts.trans hnode)
  exact absurd hsame (by decide)

end RedStore.Service
