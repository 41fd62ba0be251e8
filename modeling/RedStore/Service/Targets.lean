/-
What a request to the graph store works on, executed.

The handlers choose between the default graph, the graph that the request names and a page
by the arguments and the glob; the graph that is named comes from the URL of the request and
the graph argument.
-/
import RedStore.Service.Routing

namespace RedStore.Service
open CLib RedHttp

variable {T R σ : Type} {w : World T R σ} {c : Conn (App σ)}

/-- A connection after the URL of its request has been asked for. -/
def urlConn (c : Conn (App σ)) : Conn (App σ) := { c with request := c.request.withUrl }

@[simp] lemma urlConn_app (c : Conn (App σ)) : (urlConn c).app = c.app := rfl

@[simp] lemma getHeader_withUrl (r : Request) (key : CString) :
    r.withUrl.getHeader key = r.getHeader key := rfl

@[simp] lemma getArgument_withUrl (r : Request) (key : CString) :
    r.withUrl.getArgument key = r.getArgument key := rfl

/-- The graph that a request names. -/
def requestNode (w : World T R σ) (r : Request) : Option Node :=
  graphNodeFor w r.currentUrl (r.getArgument (CString.lit "graph"))

lemma getGraphNode_apply : getGraphNode w c = .ok (requestNode w c.request) (urlConn c) := by
  simp only [getGraphNode, bind_apply, onRequest, redhttpRequestGetUrl_apply, get_apply,
    pure_apply, getArgument_withUrl, requestNode, urlConn]

lemma withGraphNode_apply (onGraph : Node → ServiceM σ Response) :
    withGraphNode w onGraph c = match requestNode w c.request with
      | none => redstorePageNewWithMessage w .internalServerError
          (bytesOf "Failed to get node for graph.") (urlConn c)
      | some graphNode => onGraph graphNode (urlConn c) := by
  rw [withGraphNode, bind_of_ok getGraphNode_apply]
  cases requestNode w c.request <;> rfl

lemma map_some_congr {x y : ServiceM σ Response} {c c' : Conn (App σ)} (h : x c = y c') :
    (some <$> x) c = (some <$> y) c' := by
  change (x >>= fun a => pure (some a)) c = (y >>= fun a => pure (some a)) c'
  rw [bind_apply, bind_apply, h]

/-! ### The choice -/

section Choice

variable {onDefault : ServiceM σ Response} {onGraph : Node → ServiceM σ Response}

lemma withTarget_of_both (hgraph : hasGraph c.request = true) (hdefault : hasDefault c.request = true) :
    withTarget w onDefault onGraph c = (some <$> bothArguments w) c := by
  simp only [withTarget, bind_apply, get_apply, hgraph, hdefault, Bool.and_self, if_true]

lemma withTarget_of_neither (hgraph : hasGraph c.request = false) (hpath : hasPath c.request = false)
    (hdefault : hasDefault c.request = false) :
    withTarget w onDefault onGraph c =
      (some <$> redstorePageNewWithMessage w .badRequest
        (bytesOf "Missing graph path or argument.")) c := by
  simp only [withTarget, bind_apply, get_apply, hgraph, hpath, hdefault, Bool.false_eq_true,
    if_false, Bool.not_false, Bool.and_self, if_true]

lemma withTarget_of_default (hgraph : hasGraph c.request = false)
    (hdefault : hasDefault c.request = true) :
    withTarget w onDefault onGraph c = (some <$> onDefault) c := by
  simp only [withTarget, bind_apply, get_apply, hgraph, hdefault, Bool.false_and,
    Bool.false_eq_true, if_false, Bool.not_true, Bool.and_false, if_true]

lemma withTarget_of_named (hnamed : (hasGraph c.request || hasPath c.request) = true)
    (hdefault : hasDefault c.request = false) :
    withTarget w onDefault onGraph c = (some <$> withGraphNode w onGraph) c := by
  have hmissing : (!hasGraph c.request && !hasPath c.request && !false) = false := by
    rw [Bool.not_false, Bool.and_true, ← Bool.not_or, hnamed, Bool.not_true]
  simp only [withTarget, bind_apply, get_apply, hdefault, Bool.and_false, hmissing,
    Bool.false_eq_true, if_false]

lemma handleDataPost_of_both (hgraph : hasGraph c.request = true)
    (hdefault : hasDefault c.request = true) :
    handleDataPost w c = (some <$> bothArguments w) c := by
  simp only [handleDataPost, bind_apply, get_apply, hgraph, hdefault, Bool.and_self, if_true]

lemma handleDataPost_of_default (hgraph : hasGraph c.request = false)
    (hdefault : hasDefault c.request = true) :
    handleDataPost w c =
      (some <$> parseDataFromRequestBody w none (loadStreamIntoGraph w)) c := by
  simp only [handleDataPost, bind_apply, get_apply, hgraph, hdefault, Bool.false_and,
    Bool.false_eq_true, if_false, if_true]

lemma handleDataPost_of_named (hnamed : (hasGraph c.request || hasPath c.request) = true)
    (hdefault : hasDefault c.request = false) :
    handleDataPost w c = (some <$> withGraphNode w fun graphNode =>
      parseDataFromRequestBody w (some graphNode) (loadStreamIntoGraph w)) c := by
  simp only [handleDataPost, bind_apply, get_apply, hdefault, hnamed, Bool.and_false,
    Bool.false_eq_true, if_false, if_true]

lemma handleDataPost_of_neither (hgraph : hasGraph c.request = false)
    (hpath : hasPath c.request = false) (hdefault : hasDefault c.request = false) :
    handleDataPost w c = (some <$> postToNewGraph w) c := by
  simp only [handleDataPost, bind_apply, get_apply, hgraph, hpath, hdefault, Bool.and_false,
    Bool.false_eq_true, if_false, Bool.or_self]

end Choice

/-! ### The targets -/

/-- What a request works on, or why it works on nothing. -/
inductive Target where
  /-- The graph and the default argument are both there. -/
  | both
  /-- There is no argument, and nothing behind `/data`. -/
  | missing
  | default
  /-- A graph is named for which no node can be made. -/
  | unnamed
  | graph (node : Node)

/-- The target of a request to the graph store. -/
def requestTarget (w : World T R σ) (r : Request) : Target :=
  if hasGraph r && hasDefault r then .both
  else if !hasGraph r && !hasPath r && !hasDefault r then .missing
  else if hasDefault r then .default
  else match requestNode w r with
    | none => .unnamed
    | some node => .graph node

/-- The handlers other than that for POST do what belongs to the target. -/
lemma withTarget_apply (onDefault : ServiceM σ Response) (onGraph : Node → ServiceM σ Response) :
    withTarget w onDefault onGraph c = match requestTarget w c.request with
      | .both => (some <$> bothArguments w) c
      | .missing => (some <$> redstorePageNewWithMessage w .badRequest
          (bytesOf "Missing graph path or argument.")) c
      | .default => (some <$> onDefault) c
      | .unnamed => (some <$> redstorePageNewWithMessage w .internalServerError
          (bytesOf "Failed to get node for graph.")) (urlConn c)
      | .graph node => (some <$> onGraph node) (urlConn c) := by
  have hgraph : ∀ node, requestNode w c.request = some node →
      (some <$> withGraphNode w onGraph) c = (some <$> onGraph node) (urlConn c) :=
    fun node hnode => map_some_congr (by rw [withGraphNode_apply, hnode])
  have hunnamed : requestNode w c.request = none →
      (some <$> withGraphNode w onGraph) c = (some <$> redstorePageNewWithMessage w
        .internalServerError (bytesOf "Failed to get node for graph.")) (urlConn c) :=
    fun hnode => map_some_congr (by rw [withGraphNode_apply, hnode])
  simp only [withTarget, bind_apply, get_apply, requestTarget]
  split_ifs
  · rfl
  · rfl
  · rfl
  · cases hnode : requestNode w c.request with
    | none => exact hunnamed hnode
    | some node => exact hgraph node hnode

/-- POST does what belongs to the target, and makes a graph for a request without one. -/
lemma handleDataPost_apply : handleDataPost w c = match requestTarget w c.request with
    | .both => (some <$> bothArguments w) c
    | .missing => (some <$> postToNewGraph w) c
    | .default => (some <$> parseDataFromRequestBody w none (loadStreamIntoGraph w)) c
    | .unnamed => (some <$> redstorePageNewWithMessage w .internalServerError
        (bytesOf "Failed to get node for graph.")) (urlConn c)
    | .graph node => (some <$> parseDataFromRequestBody w (some node)
        (loadStreamIntoGraph w)) (urlConn c) := by
  rw [requestTarget]
  cases hgraph : hasGraph c.request <;> cases hdefault : hasDefault c.request <;>
    cases hpath : hasPath c.request
  case true.true.true | true.true.false => exact handleDataPost_of_both hgraph hdefault
  case false.true.true | false.true.false => exact handleDataPost_of_default hgraph hdefault
  case false.false.false => exact handleDataPost_of_neither hgraph hpath hdefault
  all_goals
    rw [handleDataPost_of_named (by simp [hgraph, hpath]) hdefault]
    simp only [Bool.and_false, Bool.not_true, Bool.not_false, Bool.false_and,
      Bool.false_eq_true, if_false]
    cases hnode : requestNode w c.request with
    | none => exact map_some_congr (by rw [withGraphNode_apply, hnode])
    | some node => exact map_some_congr (by rw [withGraphNode_apply, hnode])

lemma ifContained_apply (node : Node) (onGraph : ServiceM σ Response) :
    ifContained w node onGraph c =
      if (w.containsContext node c.app.storage).value then
        onGraph (called c (w.containsContext node c.app.storage))
      else redstorePageNewWithMessage w .notFound (bytesOf "Graph not found.")
        (called c (w.containsContext node c.app.storage)) := by
  rw [ifContained, bind_of_ok (call_apply _ _)]
  split <;> rfl

lemma formatStreamOf_apply (message : String) (asStream : σ → Answer σ (Option (Stream T))) :
    formatStreamOf w message asStream c = match (asStream c.app.storage).value with
      | none => redstorePageNewWithMessage w .internalServerError (bytesOf message)
          (called c (asStream c.app.storage))
      | some stream => formatGraphStream w stream (called c (asStream c.app.storage)) := by
  rw [formatStreamOf, bind_of_ok (call_apply _ _)]
  cases (asStream c.app.storage).value <;> rfl

end RedStore.Service
