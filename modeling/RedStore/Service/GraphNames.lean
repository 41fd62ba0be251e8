/-
Which graph a request to the graph store addresses.

The graph should be the graph argument, resolved against the URL of the request, or else
the URL without its query string.  But `get_graph_node` takes the URL as it is when there is
no value to resolve, query string and all; so an argument that has nothing to do with the
graph (a format, a base URI) leads to another graph, and a graph argument without a value
is replaced by the whole URL.
-/
import RedStore.Service.MemoryWorld
import RedStore.Service.Targets

namespace RedStore.Service
open CLib RedHttp

variable {T R σ : Type}

/-! ### What should be addressed -/

/-- URIs that can be made of any string and are resolved as RFC 3986 says. -/
structure IdealUris (w : World T R σ) : Prop where
  newUri : ∀ u, u.bytes ≠ [] → w.newUri u = some u
  relative : ∀ base ref, w.newUriRelativeToBase base ref =
    some (CString.ofBytes (Rfc3986.resolve base.bytes ref.bytes))
  copy : ∀ u, w.newUriFromUri u = some u
  node : ∀ u, w.newNodeFromUri u = some (.uri u)

/-- The URL of a request for a target. -/
def targetUrl (r : Request) (target : CString) : CString :=
  CString.lit "http://" ++ r.currentHost ++ target

/-- A target without its query string. -/
def withoutQuery (target : CString) : CString :=
  CString.ofBytes (target.bytes.takeWhile (· != ch '?'))

/-- A request to the graph store that names a graph. -/
structure NamesGraph (r : Request) (target : CString) : Prop where
  target : r.pathAndQuery = some target
  fresh : r.url = none
  named : (hasGraph r || hasPath r) = true
  notDefault : hasDefault r = false

/-- All handlers work on a graph: HEAD, GET, PUT and DELETE, which differ in what they do with
the target, and POST. -/
structure OperatesOn (w : World T R σ) (c : Conn (App σ)) (node : Node) : Prop where
  target : ∀ onDefault onGraph,
    withTarget w onDefault onGraph c = (some <$> onGraph node) (urlConn c)
  post : handleDataPost w c =
    (some <$> parseDataFromRequestBody w (some node) (loadStreamIntoGraph w)) (urlConn c)

/-- The graph argument, resolved against the URL. -/
def resolvedGraph (r : Request) (target graph : CString) : Node :=
  .uri (CString.ofBytes (Rfc3986.resolve (targetUrl r target).bytes graph.bytes))

/-- The graph that is named by the path. -/
def pathGraph (r : Request) (target : CString) : Node := .uri (targetUrl r (withoutQuery target))

/-- A request addresses the graph that it should: the graph argument, or the path if there is
none.  A graph argument without a value may be ignored, if there is a path, or rejected. -/
def RightlyAddressed (w : World T R σ) (c : Conn (App σ)) (target : CString) : Prop :=
  match c.request.getArgument (CString.lit "graph"), hasGraph c.request with
  | some graph, _ => OperatesOn w c (resolvedGraph c.request target graph)
  | none, true => ∀ node, OperatesOn w c node →
      hasPath c.request = true ∧ node = pathGraph c.request target
  | none, false => OperatesOn w c (pathGraph c.request target)

/-- Two requests address one graph. -/
def SameGraph (w : World T R σ) (c c' : Conn (App σ)) : Prop :=
  ∃ node, OperatesOn w c node ∧ OperatesOn w c' node

/-- Two requests with one host, path and graph argument. -/
structure SameAddress (r r' : Request) (target target' : CString) : Prop where
  host : r.currentHost = r'.currentHost
  path : withoutQuery target = withoutQuery target'
  glob : hasPath r = hasPath r'
  graph : r.getArgument (CString.lit "graph") = r'.getArgument (CString.lit "graph")
  graphExists : hasGraph r = hasGraph r'

/-! ### What is addressed -/

section Operates

variable {w : World T R σ} {c : Conn (App σ)} {target : CString} {node node' : Node}

lemma currentUrl_eq (h : NamesGraph c.request target) :
    c.request.currentUrl = some (targetUrl c.request target) := by
  simp only [Request.currentUrl, h.fresh, h.target, Option.none_or, Option.map_some, targetUrl]

/-- The graph that a request does name: its whole URL when there is no value to resolve. -/
def addressedGraph (r : Request) (target : CString) : Node :=
  match r.getArgument (CString.lit "graph") with
  | some graph => resolvedGraph r target graph
  | none => .uri (targetUrl r target)

lemma requestNode_eq (hw : IdealUris w) (h : NamesGraph c.request target) :
    requestNode w c.request = some (addressedGraph c.request target) := by
  have hne : (targetUrl c.request target).bytes ≠ [] := by
    simp [targetUrl, CString.lit, CString.ofBytes, bytesOf, ch]
  rw [requestNode, graphNodeFor, currentUrl_eq h, Option.bind_some, hw.newUri _ hne,
    addressedGraph]
  cases c.request.getArgument (CString.lit "graph") with
  | none => simp only [hw.copy, Option.bind_some, hw.node]
  | some graph => simp only [hw.relative, Option.bind_some, hw.node, resolvedGraph]

lemma operatesOn_addressedGraph (hw : IdealUris w) (h : NamesGraph c.request target) :
    OperatesOn w c (addressedGraph c.request target) where
  target onDefault onGraph := by
    rw [withTarget_of_named h.named h.notDefault]
    refine map_some_congr ?_
    rw [withGraphNode_apply, requestNode_eq hw h]
  post := by
    rw [handleDataPost_of_named h.named h.notDefault]
    refine map_some_congr ?_
    rw [withGraphNode_apply, requestNode_eq hw h]

/-- The handlers work on one graph only. -/
lemma OperatesOn.unique (h : OperatesOn w c node) (h' : OperatesOn w c node') : node = node' := by
  by_contra hne
  have hrun := (h.target (pure (redhttpResponseNew .ok)) fun n =>
      pure (redhttpResponseNew (if n = node then .ok else .created))).symm.trans
    (h'.target _ _)
  simp only [if_true, if_neg (Ne.symm hne)] at hrun
  have hstatus : (EStateM.Result.ok (some (redhttpResponseNew .ok)) (urlConn c) :
      EStateM.Result Fault (Conn (App σ)) (Option Response)) =
      .ok (some (redhttpResponseNew .created)) (urlConn c) := hrun
  simp [redhttpResponseNew] at hstatus

lemma operatesOn_iff (hw : IdealUris w) (h : NamesGraph c.request target) :
    OperatesOn w c node ↔ node = addressedGraph c.request target := by
  constructor
  · exact fun hnode => hnode.unique (operatesOn_addressedGraph hw h)
  · rintro rfl
    exact operatesOn_addressedGraph hw h

end Operates

/-! ### When it is the right graph -/

section Right

variable {w : World T R σ} {c c' : Conn (App σ)} {target target' : CString}

lemma withoutQuery_bytes (target : CString) :
    (withoutQuery target).bytes = target.bytes.takeWhile (· != ch '?') :=
  CString.bytes_ofBytes_of_not_mem fun h => target.nul_free
    ((List.takeWhile_prefix _).subset h)

lemma withoutQuery_eq_self_iff : withoutQuery target = target ↔ ch '?' ∉ target.bytes := by
  rw [CString.ext_iff, withoutQuery_bytes, takeWhile_bne_eq_self_iff]

lemma targetUrl_bytes (r : Request) (target : CString) :
    (targetUrl r target).bytes = (CString.lit "http://" ++ r.currentHost).bytes ++ target.bytes :=
  rfl

lemma targetUrl_injective {r : Request} : Function.Injective (targetUrl r) := by
  intro target target' h
  rw [CString.ext_iff, targetUrl_bytes, targetUrl_bytes] at h
  exact CString.ext (List.append_cancel_left h)

/-- The graph argument has a value, or the request names its graph by a path without a query
string. -/
def Unambiguous (r : Request) (target : CString) : Prop :=
  (r.getArgument (CString.lit "graph")).isSome = true ∨
    hasPath r = true ∧ ch '?' ∉ target.bytes

/-- A request addresses the right graph exactly if it is unambiguous. -/
lemma rightlyAddressed_iff (hw : IdealUris w) (h : NamesGraph c.request target) :
    RightlyAddressed w c target ↔ Unambiguous c.request target := by
  have hpathGraph : Node.uri (targetUrl c.request target) = pathGraph c.request target ↔
      ch '?' ∉ target.bytes := by
    rw [pathGraph, Node.uri.injEq, targetUrl_injective.eq_iff, eq_comm, withoutQuery_eq_self_iff]
  rw [RightlyAddressed, Unambiguous]
  cases hgraph : c.request.getArgument (CString.lit "graph") with
  | some graph =>
    simp only [operatesOn_iff hw h, addressedGraph, hgraph, Option.isSome_some, true_or]
  | none =>
    cases hexists : hasGraph c.request with
    | true =>
      simp only [operatesOn_iff hw h, addressedGraph, hgraph, forall_eq, hpathGraph,
        Option.isSome_none, Bool.false_eq_true, false_or]
    | false =>
      have hpath : hasPath c.request = true := by
        have := h.named
        rwa [hexists, Bool.false_or] at this
      simp only [operatesOn_iff hw h, addressedGraph, hgraph, hpath, Option.isSome_none,
        Bool.false_eq_true, false_or, true_and]
      rw [← hpathGraph, eq_comm]

/-! ### When two requests address one graph -/

/-- A URL up to its query string does not show what the query string is. -/
lemma hierarchical_targetUrl (r : Request) (target : CString) :
    Rfc3986.hierarchical (targetUrl r target).bytes =
      Rfc3986.hierarchical (targetUrl r (withoutQuery target)).bytes := by
  have hsplit : (targetUrl r target).bytes = (targetUrl r (withoutQuery target)).bytes ++
      target.bytes.dropWhile (· != ch '?') := by
    rw [targetUrl_bytes, targetUrl_bytes, withoutQuery_bytes, List.append_assoc,
      List.takeWhile_append_dropWhile]
  rw [hsplit]
  refine Rfc3986.hierarchical_append_query _ fun c rest hdrop => ?_
  have := List.head?_dropWhile_not (· != ch '?') target.bytes
  rw [hdrop] at this
  simpa using this

lemma resolve_nul_free (base ref : CString) :
    (0 : UInt8) ∉ Rfc3986.resolve base.bytes ref.bytes := by
  have hall := Rfc3986.forall_mem_resolve (p := fun c => c ≠ 0) (forall_mem_of_all (by decide))
    (fun c hc h => base.nul_free (h ▸ hc)) (fun c hc h => ref.nul_free (h ▸ hc))
  exact fun h => hall 0 h rfl

/-- With one graph argument, what matters of the query strings is whether the argument is
resolved against them. -/
lemma resolvedGraph_eq_iff (h : SameAddress c.request c'.request target target')
    (graph : CString) :
    resolvedGraph c.request target graph = resolvedGraph c'.request target' graph ↔
      ((Rfc3986.parse graph.bytes).SameDocument →
        (Rfc3986.parse (targetUrl c.request target).bytes).query =
          (Rfc3986.parse (targetUrl c'.request target').bytes).query) := by
  have hhier : Rfc3986.hierarchical (targetUrl c.request target).bytes =
      Rfc3986.hierarchical (targetUrl c'.request target').bytes := by
    rw [hierarchical_targetUrl, hierarchical_targetUrl c'.request, h.path, targetUrl, targetUrl,
      h.host]
  have hscheme : (Rfc3986.parse (targetUrl c.request target).bytes).scheme =
      (Rfc3986.parse (targetUrl c'.request target').bytes).scheme := by
    simp only [Rfc3986.parse, hhier]
  have hiff := Rfc3986.recompose_transform_eq_iff (Rfc3986.parse graph.bytes) hscheme
    (by simp only [Rfc3986.parse, hhier]) (by simp only [Rfc3986.parse, hhier])
  rw [← hiff, resolvedGraph, resolvedGraph, Node.uri.injEq, CString.ext_iff,
    CString.bytes_ofBytes_of_not_mem (resolve_nul_free _ _),
    CString.bytes_ofBytes_of_not_mem (resolve_nul_free _ _)]
  rfl

lemma sameGraph_iff (hw : IdealUris w) (h : NamesGraph c.request target)
    (h' : NamesGraph c'.request target') :
    SameGraph w c c' ↔ addressedGraph c.request target = addressedGraph c'.request target' := by
  simp only [SameGraph, operatesOn_iff hw h, operatesOn_iff hw h', exists_eq_left]

/-- Two requests with one host, path and graph argument address the graph that they should,
and so the same graph, exactly if both are unambiguous and a graph argument that is resolved
against the query strings finds the same one in both. -/
theorem graphAddressing_iff (hw : IdealUris w) (h : NamesGraph c.request target)
    (h' : NamesGraph c'.request target')
    (hsame : SameAddress c.request c'.request target target') :
    RightlyAddressed w c target ∧ RightlyAddressed w c' target' ∧ SameGraph w c c' ↔
      (Unambiguous c.request target ∧ Unambiguous c'.request target') ∧
        ∀ graph, c.request.getArgument (CString.lit "graph") = some graph →
          (Rfc3986.parse graph.bytes).SameDocument →
            (Rfc3986.parse (targetUrl c.request target).bytes).query =
              (Rfc3986.parse (targetUrl c'.request target').bytes).query := by
  rw [rightlyAddressed_iff hw h, rightlyAddressed_iff hw h', sameGraph_iff hw h h', ← and_assoc]
  refine and_congr_right fun ⟨hun, hun'⟩ => ?_
  cases hgraph : c.request.getArgument (CString.lit "graph") with
  | some graph =>
    simp only [addressedGraph, hgraph, ← hsame.graph, Option.some.injEq, forall_eq',
      resolvedGraph_eq_iff hsame]
  | none =>
    -- neither target has a query string
    have hplain : ch '?' ∉ target.bytes := by
      rw [Unambiguous, hgraph] at hun
      simpa using (hun.resolve_left (by simp)).2
    have hplain' : ch '?' ∉ target'.bytes := by
      rw [Unambiguous, ← hsame.graph, hgraph] at hun'
      simpa using (hun'.resolve_left (by simp)).2
    have htarget : target = target' := by
      rw [← withoutQuery_eq_self_iff.mpr hplain, ← withoutQuery_eq_self_iff.mpr hplain',
        hsame.path]
    simp [addressedGraph, hgraph, ← hsame.graph, targetUrl, hsame.host, htarget]

end Right

/-! ### Requests in the world in memory -/

lemma memoryWorld_idealUris : IdealUris memoryWorld where
  newUri _ h := if_neg h
  relative _ _ := rfl
  copy _ := rfl
  node _ := rfl

/-- A GET for a path with some arguments. -/
def getRequest (path query : String) (arguments : List (String × String)) : Request where
  arguments := arguments.map fun a => ⟨CString.lit a.1, some (CString.lit a.2)⟩
  host := some (CString.lit "localhost")
  method := some (CString.lit "GET")
  pathAndQuery := some (CString.lit (path ++ "?" ++ query))
  path := some (CString.lit path)
  queryString := some (CString.lit query)
  version := some (CString.lit "1.0")

/-- A GET of a graph by its name, and another that asks for a format. -/
def plainGet : Conn (App MemoryStore) :=
  dataConn ⟨getRequest "/data" "graph=http://g/a" [("graph", "http://g/a")], emptyApp⟩ default

def formatGet : Conn (App MemoryStore) :=
  dataConn ⟨getRequest "/data" "graph=http://g/a&format=ntriples"
    [("graph", "http://g/a"), ("format", "ntriples")], emptyApp⟩ default

/-- A graph argument leads to one graph, whatever format is asked for. -/
theorem graphAddressing_with_format :
    RightlyAddressed memoryWorld plainGet (CString.lit "/data?graph=http://g/a") ∧
      RightlyAddressed memoryWorld formatGet
        (CString.lit "/data?graph=http://g/a&format=ntriples") ∧
      SameGraph memoryWorld plainGet formatGet := by
  have hplain : NamesGraph plainGet.request (CString.lit "/data?graph=http://g/a") :=
    ⟨rfl, rfl, by decide, by decide⟩
  have hformat : NamesGraph formatGet.request
      (CString.lit "/data?graph=http://g/a&format=ntriples") :=
    ⟨rfl, rfl, by decide, by decide⟩
  have hsame : SameAddress plainGet.request formatGet.request
      (CString.lit "/data?graph=http://g/a")
      (CString.lit "/data?graph=http://g/a&format=ntriples") :=
    ⟨by decide, by decide, rfl, by decide, by decide⟩
  refine (graphAddressing_iff memoryWorld_idealUris hplain hformat hsame).mpr
    ⟨⟨Or.inl (by decide), Or.inl (by decide)⟩, fun graph hgraph hdocument => ?_⟩
  obtain rfl : CString.lit "http://g/a" = graph := Option.some.inj hgraph
  exact absurd hdocument (by decide)

/-- What is PUT at a path is not there when it is asked for in a format, since the GET
addresses another graph. -/
theorem format_argument_addresses_other_graph :
    (match dispatchRequest memoryWorld ⟨putRequest, emptyApp⟩ with
      | .ok (some response) c => some (response.status,
        match dispatchRequest memoryWorld
            ⟨getRequest "/data/x" "format=ntriples" [("format", "ntriples")], c.app⟩ with
          | .ok (some response) _ => some response.status
          | _ => none)
      | _ => none) = some (.ok, some .notFound) ∧
      ¬ RightlyAddressed memoryWorld (dataConn
        ⟨getRequest "/data/x" "format=ntriples" [("format", "ntriples")], emptyApp⟩
        (CString.lit "/x")) (CString.lit "/data/x?format=ntriples") := by
  have hnames : NamesGraph (dataConn
      ⟨getRequest "/data/x" "format=ntriples" [("format", "ntriples")], emptyApp⟩
      (CString.lit "/x")).request (CString.lit "/data/x?format=ntriples") :=
    ⟨rfl, rfl, by decide, by decide⟩
  refine ⟨by decide +kernel, ?_⟩
  rw [rightlyAddressed_iff memoryWorld_idealUris hnames]
  rintro (hvalue | ⟨-, hplain⟩)
  · exact absurd hvalue (by decide)
  · exact absurd hplain (by decide)

end RedStore.Service
