/-
`data.c`: the graph store protocol.

HEAD, GET, PUT and DELETE choose what they work on in one way: the default graph, or the
graph that the request names, or neither when the arguments make no sense.  `withTarget` is
that choice; POST, which may also make a graph of its own, has another.
-/
import RedStore.Service.Formatters
import RedStore.Service.GenId
import RedStore.Service.Update

namespace RedStore.Service
open CLib RedHttp

variable {T R σ : Type} (w : World T R σ)

/-! ### Graph nodes -/

/-- The node that `get_graph_node` makes for a URL and a graph argument. -/
def graphNodeFor (url graph : Option CString) : Option Node :=
  match url.bind w.newUri with
  | none => none
  | some baseUri =>
    let graphUri := match graph with
      | some graph => w.newUriRelativeToBase baseUri graph
      | none => w.newUriFromUri baseUri
    graphUri.bind w.newNodeFromUri

/-- `get_graph_node`. -/
def getGraphNode : ServiceM σ (Option Node) := do
  let url ← onRequest redhttpRequestGetUrl
  pure (graphNodeFor w url ((← get).request.getArgument (CString.lit "graph")))

/-- `new_graph_node`. -/
def newGraphNode (baseUriStr : Option CString) : ServiceM σ (Option Node) := do
  let id ← redstoreGenid w
  let path := CString.lit "/data/" ++ id
  pure (graphNodeFor w baseUriStr (some path))

/-! ### Deleting everything -/

/-- The first loop of `remove_all_statements`, with the number of errors so far. -/
def removeGraphs : Stream Node → ℕ → ServiceM σ ℕ
  | [], err => pure err
  | .log m :: iterator, err => do
    redlandLogHandler m
    removeGraphs iterator err
  -- the loop is left without an error being counted
  | .object none :: _, err => pure err
  | .object (some graph) :: iterator, err => do
    let failed ← call (w.contextRemoveStatements graph)
    removeGraphs iterator (if failed then err + 1 else err)

/-- The second loop of `remove_all_statements`. -/
def removeStatements : Stream T → ℕ → ServiceM σ ℕ
  | [], err => pure err
  | .log m :: stream, err => do
    redlandLogHandler m
    removeStatements stream err
  | .object none :: _, err => pure err
  | .object (some statement) :: stream, err => do
    let failed ← call (w.removeStatement statement)
    removeStatements stream (if failed then err + 1 else err)

/-- `err || error_buffer`. -/
def errOrErrorBuffer (err : ℕ) : ServiceM σ Bool :=
  if err ≠ 0 then pure true else Option.isSome <$> inspectErrorBuffer

/-- `remove_all_statements`. -/
def removeAllStatements : ServiceM σ Response := do
  -- first: delete all the named graphs
  match ← call w.storageGetContexts with
  | none =>
    redstorePageNewWithMessage w .internalServerError (bytesOf "Failed to get list of graphs.")
  | some iterator =>
    let err ← removeGraphs w iterator 0
    -- second: delete the remaining triples
    match ← call w.modelAsStream with
    | none => redstorePageNewWithMessage w .internalServerError (bytesOf "Failed to stream model.")
    | some stream =>
      let err ← removeStatements w stream err
      if ← errOrErrorBuffer err then
        redstorePageNewWithMessage w .internalServerError
          (bytesOf "Error deleting some statements.")
      else redstorePageNewWithMessage w .ok (bytesOf "Successfully deleted all statements.")

/-! ### A graph of its own -/

/-- The loop of `post_to_new_graph`: a node for a graph that is not there, or the message of
the page that says why there is none. -/
def findNewGraph : ℕ → ServiceM σ (Except String Node)
  | 0 => pure (.error "Failed to create new graph identifier.")
  | attempts + 1 => do
    match ← newGraphNode w (← onRequest redhttpRequestGetUrl) with
    | none => pure (.error "Failed to create node for graph identifier.")
    | some graphNode =>
      if ← call (w.containsContext graphNode) then findNewGraph attempts
      else pure (.ok graphNode)

/-- `post_to_new_graph`. -/
def postToNewGraph : ServiceM σ Response := do
  match ← findNewGraph w 10 with
  | .error message => redstorePageNewWithMessage w .internalServerError (bytesOf message)
  | .ok graphNode => parseDataFromRequestBody w (some graphNode) (loadStreamIntoNewGraph w)

/-! ### The handlers -/

/-- `redhttp_request_argument_exists(request, "graph")`. -/
def hasGraph (r : Request) : Bool := r.argumentExists (CString.lit "graph")

/-- `redhttp_request_argument_exists(request, "default")`. -/
def hasDefault (r : Request) : Bool := r.argumentExists (CString.lit "default")

/-- `redhttp_request_get_path_glob(request) != NULL`. -/
def hasPath (r : Request) : Bool := decide (r.pathGlob ≠ .null)

/-- What is said of a request with both arguments. -/
def bothArguments : ServiceM σ Response :=
  redstorePageNewWithMessage w .badRequest
    (bytesOf "The 'graph' and 'default' arguments can not be used together.")

/-- The graph of the request, or a page. -/
def withGraphNode (onGraph : Node → ServiceM σ Response) : ServiceM σ Response := do
  match ← getGraphNode w with
  | none =>
    redstorePageNewWithMessage w .internalServerError (bytesOf "Failed to get node for graph.")
  | some graphNode => onGraph graphNode

/-- The choice of what a request works on. -/
def withTarget (onDefault : ServiceM σ Response) (onGraph : Node → ServiceM σ Response) :
    ServiceM σ (Option Response) := do
  let r := (← get).request
  if hasGraph r && hasDefault r then some <$> bothArguments w
  else if !hasGraph r && !hasPath r && !hasDefault r then
    some <$> redstorePageNewWithMessage w .badRequest (bytesOf "Missing graph path or argument.")
  else if hasDefault r then some <$> onDefault
  else some <$> withGraphNode w onGraph

/-- The graph if it exists, or a page. -/
def ifContained (graphNode : Node) (onGraph : ServiceM σ Response) : ServiceM σ Response := do
  if ← call (w.containsContext graphNode) then onGraph
  else redstorePageNewWithMessage w .notFound (bytesOf "Graph not found.")

/-- `handle_data_head`. -/
def handleDataHead : ServiceM σ (Option Response) :=
  withTarget w (pure (redhttpResponseNew .ok)) fun graphNode =>
    ifContained w graphNode (pure (redhttpResponseNew .ok))

/-- The triples of a graph or of the model, formatted, or a page. -/
def formatStreamOf (message : String) (asStream : σ → Answer σ (Option (Stream T))) :
    ServiceM σ Response := do
  match ← call asStream with
  | none => redstorePageNewWithMessage w .internalServerError (bytesOf message)
  | some stream => formatGraphStream w stream

/-- `handle_data_get`. -/
def handleDataGet : ServiceM σ (Option Response) :=
  withTarget w (formatStreamOf w "Failed to stream model." w.modelAsStream) fun graphNode =>
    ifContained w graphNode
      (formatStreamOf w "Failed to stream context." (w.contextAsStream graphNode))

/-- `handle_data_post`. -/
def handleDataPost : ServiceM σ (Option Response) := do
  let r := (← get).request
  if hasGraph r && hasDefault r then some <$> bothArguments w
  else if hasDefault r then some <$> parseDataFromRequestBody w none (loadStreamIntoGraph w)
  else if hasGraph r || hasPath r then
    some <$> withGraphNode w fun graphNode =>
      parseDataFromRequestBody w (some graphNode) (loadStreamIntoGraph w)
  else some <$> postToNewGraph w

/-- `handle_data_put`. -/
def handleDataPut : ServiceM σ (Option Response) :=
  withTarget w (redstorePageNewWithMessage w .notImplemented
      (bytesOf "PUTing data into the default graph is not implemented.")) fun graphNode =>
    parseDataFromRequestBody w (some graphNode) (clearAndLoadStreamIntoGraph w)

/-- `handle_data_delete`. -/
def handleDataDelete : ServiceM σ (Option Response) :=
  withTarget w (removeAllStatements w) fun graphNode =>
    ifContained w graphNode do
      if ← call (w.contextRemoveStatements graphNode) then
        redstorePageNewWithMessage w .internalServerError
          (bytesOf "Error while trying to delete graph")
      else redstorePageNewWithMessage w .ok (bytesOf "Successfully deleted graph.")

end RedStore.Service
