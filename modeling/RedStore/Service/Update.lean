/-
`update.c`: adding triples to a graph and deleting them from it.

What is done with a stream of parsed triples is passed along as a function, the
`redstore_stream_processor` of the source.
-/
import RedStore.Service.Pages

namespace RedStore.Service
open CLib RedHttp

variable {T R σ : Type} (w : World T R σ)

/-- A string behind `%s`; `printf` shows a NULL as `(null)`. -/
def shown (str : Option CString) : List UInt8 := str.elim (bytesOf "(null)") CString.bytes

/-! ### What is done with a stream -/

/-- `redstore_stream_processor`: what is done with a stream and a graph. -/
abbrev StreamProcessor (T σ : Type) : Type := Stream T → Option Node → ServiceM σ Response

/-- `load_stream_into_new_graph`. -/
def loadStreamIntoNewGraph (stream : Stream T) (graphNode : Option Node) :
    ServiceM σ Response := do
  let graphStr := graphNode.bind Node.getUri
  if ← call (w.contextAddStatements graphNode stream) then
    redstorePageNewWithMessage w .internalServerError (bytesOf "Failed to add triples to graph.")
  else if (← inspectErrorBuffer).isSome then
    redstorePageNewWithMessage w .internalServerError
      (bytesOf "Error while adding triples to new graph: " ++ shown graphStr)
  else do
    let response ← redstorePageNewWithMessage w .created
      (bytesOf "Successfully added triples to new graph: " ++ shown graphStr)
    pure (redhttpResponseAddHeader response HeaderName.location graphStr)

/-- What `load_stream_into_graph` calls its graph. -/
def graphName : Option Node → Option CString
  | some graph => graph.getUri
  | none => some (CString.lit "the default graph.")

/-- `load_stream_into_graph`. -/
def loadStreamIntoGraph (stream : Stream T) (graph : Option Node) : ServiceM σ Response := do
  if ← call (w.contextAddStatements graph stream) then
    redstorePageNewWithMessage w .internalServerError (bytesOf "Failed to add triples to graph.")
  else if (← inspectErrorBuffer).isSome then
    redstorePageNewWithMessage w .internalServerError
      (bytesOf "Error while adding triples to: " ++ shown (graphName graph))
  else
    redstorePageNewWithMessage w .ok
      (bytesOf "Successfully added triples to: " ++ shown (graphName graph))

/-- Loading by what adding the statements comes to. -/
lemma loadStreamIntoGraph_eq (stream : Stream T) (graph : Option Node) (c : Conn (App σ)) :
    loadStreamIntoGraph w stream graph c =
      let answer := w.contextAddStatements graph stream c.app.storage
      if answer.value then
        redstorePageNewWithMessage w .internalServerError
          (bytesOf "Failed to add triples to graph.") (called c answer)
      else if (called c answer).app.errorBuffer.isSome then
        redstorePageNewWithMessage w .internalServerError
          (bytesOf "Error while adding triples to: " ++ shown (graphName graph))
          (looked (called c answer))
      else
        redstorePageNewWithMessage w .ok
          (bytesOf "Successfully added triples to: " ++ shown (graphName graph))
          (looked (called c answer)) := by
  simp only [loadStreamIntoGraph, bind_apply, call_apply]
  split
  · rfl
  · simp only [bind_apply, inspect_apply]
    split <;> rfl

/-- Loading into a new graph by what adding the statements comes to. -/
lemma loadStreamIntoNewGraph_eq (stream : Stream T) (graph : Option Node) (c : Conn (App σ)) :
    loadStreamIntoNewGraph w stream graph c =
      let answer := w.contextAddStatements graph stream c.app.storage
      let graphStr := graph.bind Node.getUri
      if answer.value then
        redstorePageNewWithMessage w .internalServerError
          (bytesOf "Failed to add triples to graph.") (called c answer)
      else if (called c answer).app.errorBuffer.isSome then
        redstorePageNewWithMessage w .internalServerError
          (bytesOf "Error while adding triples to new graph: " ++ shown graphStr)
          (looked (called c answer))
      else
        ((fun response => redhttpResponseAddHeader response HeaderName.location graphStr) <$>
          redstorePageNewWithMessage w .created
            (bytesOf "Successfully added triples to new graph: " ++ shown graphStr))
          (looked (called c answer)) := by
  simp only [loadStreamIntoNewGraph, bind_apply, call_apply]
  split
  · rfl
  · simp only [bind_apply, inspect_apply]
    split <;> rfl

/-- `clear_and_load_stream_into_graph`; what the removal answers is dropped. -/
def clearAndLoadStreamIntoGraph (stream : Stream T) (graph : Option Node) :
    ServiceM σ Response := do
  match graph with
  | some graph => discard (call (w.contextRemoveStatements graph))
  | none => pure ()
  loadStreamIntoGraph w stream graph

/-- The loop of `delete_stream_from_graph`, with the number of triples deleted so far. -/
def deleteStatements (graph : Option Node) : Stream T → ℕ → ServiceM σ ℕ
  | [], count => pure count
  | .log m :: stream, count => do
    redlandLogHandler m
    deleteStatements graph stream count
  | .object statement :: stream, count => do
    let failed ← call (w.contextRemoveStatement graph statement)
    deleteStatements graph stream (if failed then count else count + 1)

/-- `delete_stream_from_graph`. -/
def deleteStreamFromGraph (stream : Stream T) (graph : Option Node) : ServiceM σ Response := do
  let count ← deleteStatements w graph stream 0
  if (← inspectErrorBuffer).isSome then
    redstorePageNewWithMessage w .internalServerError (bytesOf "Error while deleting triples.")
  else if count > 0 then
    redstorePageNewWithMessage w .ok
      (bytesOf "Successfully deleted " ++ decimal count ++ bytesOf " triples.")
  else redstorePageNewWithMessage w .ok (bytesOf "No triples deleted.")

/-! ### Parsing -/

/-- The base URI of `parse_data_from_buffer`, NULL when there is none to be had, or the
message of the page that says why it cannot be made. -/
def chooseBaseUri (baseUriStr : Option CString) (graphNode : Option Node) :
    Except String (Option CString) :=
  match baseUriStr, graphNode with
  | some baseUriStr, _ =>
    match w.newUri baseUriStr with
    | some uri => .ok (some uri)
    | none => .error "Failed to create base URI."
  | none, some graphNode =>
    match graphNode.getUri.bind w.newUriFromUri with
    | some uri => .ok (some uri)
    | none => .error "Failed to create base URI from graph URI."
  | none, none => .ok none

/-- `parse_data_from_buffer`. -/
def parseDataFromBuffer (buffer : List UInt8) (parserName : CString) (graphNode : Option Node)
    (streamProc : StreamProcessor T σ) : ServiceM σ Response := do
  match chooseBaseUri w ((← get).request.getArgument (CString.lit "base-uri")) graphNode with
  | .error message => redstorePageNewWithMessage w .internalServerError (bytesOf message)
  | .ok baseUri =>
    if ← call (w.newParser parserName) then
      match ← call (w.parserParseCountedString parserName buffer baseUri) with
      | some stream => streamProc stream graphNode
      | none => redstorePageNewWithMessage w .internalServerError (bytesOf "Failed to parse data.")
    else redstorePageNewWithMessage w .internalServerError (bytesOf "Failed to create parser.")

/-! ### The request body -/

/-- The reading of a body that has been allocated. -/
def readAllocatedBody (length : ℕ) : RequestM (Except (Status × String) (List UInt8)) := do
  let data ← fread length length
  if data.length ≠ length then
    pure (.error (.internalServerError, "Error reading content from client."))
  else pure (.ok data)

/-- The first part of `parse_data_from_request_body`: the data, or the status and the message
of the page that says why there are none. -/
def readDataBody (heap : Heap) (contentLengthStr : Option CString) :
    RequestM (Except (Status × String) (List UInt8)) :=
  match contentLengthStr with
  | none => pure (.error (.badRequest, "Missing content length header."))
  | some contentLengthStr => do
    let contentLength := sizeOfInt (atoi contentLengthStr)
    -- `content_length <= 0`, of a `size_t`
    if contentLength = 0 then pure (.error (.badRequest, "Invalid content length header."))
    else if ← allocBody heap contentLength then readAllocatedBody contentLength
    else pure (.error (.internalServerError, "Failed to allocate memory for input data."))

/-- `parse_data_from_request_body`. -/
def parseDataFromRequestBody (graphNode : Option Node) (streamProc : StreamProcessor T σ) :
    ServiceM σ Response := do
  let r := (← get).request
  match ← onRequest (readDataBody w.heap (r.getHeader (CString.lit "Content-Length"))) with
  | .error (status, message) => redstorePageNewWithMessage w status (bytesOf message)
  | .ok data =>
    match w.parserGuessName (r.getHeader (CString.lit "Content-Type")) data with
    | none =>
      redstorePageNewWithMessage w .internalServerError (bytesOf "Failed to guess parser type.")
    | some parserName => parseDataFromBuffer w data parserName graphNode streamProc

/-! ### The handlers -/

/-- The URIs of `handle_load_post`: what to load, the base and the graph, or the message of
the page that says which of them cannot be made. -/
def loadUris (uriArg : CString) (baseArg graphArg : Option CString) :
    Except String (CString × CString × CString) :=
  match w.newUri uriArg with
  | none => .error "librdf_new_uri failed for URI"
  | some uri =>
    match w.newUri (baseArg.getD uriArg) with
    | none => .error "librdf_new_uri failed for Base URI"
    | some baseUri =>
      match w.newUri (graphArg.getD uriArg) with
      | none => .error "librdf_new_uri failed for Graph URI"
      | some graphUri => .ok (uri, baseUri, graphUri)

/-- `handle_load_post`. -/
def handleLoadPost : ServiceM σ (Option Response) := do
  let r := (← get).request
  match r.getArgument (CString.lit "uri") with
  | none => some <$> redstorePageNewWithMessage w .badRequest (bytesOf "Missing URI to load.")
  | some uriArg =>
    match loadUris w uriArg (r.getArgument (CString.lit "base-uri"))
        (r.getArgument (CString.lit "graph")) with
    | .error message => some <$> redstorePageNewWithMessage w .badRequest (bytesOf message)
    | .ok (uri, baseUri, graphUri) =>
      let parserArg := (r.getArgument (CString.lit "parser")).getD (CString.lit "guess")
      if ← call (w.newParser parserArg) then
        match ← call (w.parserParse parserArg uri baseUri) with
        | none =>
          some <$> redstorePageNewWithMessage w .internalServerError
            (bytesOf "Failed to parse RDF as stream.")
        | some stream =>
          match w.newNodeFromUri graphUri with
          | none =>
            some <$> redstorePageNewWithMessage w .internalServerError
              (bytesOf "librdf_new_node_from_uri failed for graph-uri.")
          | some graph => some <$> loadStreamIntoGraph w stream (some graph)
      else
        some <$> redstorePageNewWithMessage w .internalServerError
          (bytesOf "Failed to create parser")

/-- `DEFAULT_PARSE_FORMAT`. -/
def defaultParseFormat : CString := CString.lit "ntriples"

/-- The graph named by an argument, if it is there; the inner `none` is a node that cannot be
made. -/
def graphArgumentNode : Option CString → Option (Option Node)
  | none => some none
  | some graphUriStr => (w.newNodeFromUriString graphUriStr).map some

/-- `handle_insert_post` and `handle_delete_post`, by what they do with the triples. -/
def handleContentPost (streamProc : StreamProcessor T σ) : ServiceM σ (Option Response) := do
  let r := (← get).request
  match r.getArgument (CString.lit "content") with
  | none =>
    some <$> redstorePageNewWithMessage w .badRequest (bytesOf "Missing the 'content' argument.")
  | some content =>
    let contentType := (r.getArgument (CString.lit "content-type")).getD defaultParseFormat
    match graphArgumentNode w (r.getArgument (CString.lit "graph")) with
    | none =>
      some <$> redstorePageNewWithMessage w .internalServerError
        (bytesOf "Error creating graph node from URI string")
    | some graphNode => some <$> parseDataFromBuffer w content.bytes contentType graphNode streamProc

/-- `handle_insert_post`. -/
def handleInsertPost : ServiceM σ (Option Response) :=
  handleContentPost w (loadStreamIntoGraph w)

/-- `handle_delete_post`. -/
def handleDeletePost : ServiceM σ (Option Response) :=
  handleContentPost w (deleteStreamFromGraph w)

end RedStore.Service
