/-
`formatters.c`: a stream of triples or the results of a query, sent in a format that the
client takes.

The headers are sent before the results are written, so that a failure while writing comes
too late for another status.
-/
import RedStore.Service.Pages

namespace RedStore.Service
open CLib RedHttp

variable {T R σ : Type} (w : World T R σ)

/-- `DEFAULT_GRAPH_FORMAT`. -/
def defaultGraphFormat : CString := CString.lit "rdfxml"

/-- `DEFAULT_RESULTS_FORMAT`. -/
def defaultResultsFormat : CString := CString.lit "xml"

/-- The response that `format_graph_stream` and `format_bindings_query_result` send. -/
def formattedResponse (mimeType : Option CString) : Response :=
  match mimeType with
  | some mimeType =>
    redhttpResponseAddHeader (redhttpResponseNew .ok) HeaderName.contentType (some mimeType)
  | none => redhttpResponseNew .ok

/-- The end of both functions: the headers, then what writing the results comes to. -/
def sendFormatted (mimeType : Option CString) (write : σ → Answer σ (Bool × List UInt8)) :
    ServiceM σ Response := do
  let response ← onRequest (redhttpResponseSend w.now (formattedResponse mimeType))
  let (_, written) ← call write
  onRequest (fwrite written)
  pure response

/-- `format_graph_stream`. -/
def formatGraphStream (stream : Stream T) : ServiceM σ Response := do
  match ← ofExcept (redstoreNegotiateFormat (← get).request w.serializerDescriptions
      defaultGraphFormat) with
  | (none, _) =>
    redstorePageNewWithMessage w .notAcceptable
      (bytesOf "Results format not supported for graph query type.")
  | (some desc, mimeType) =>
    if ← call (w.newSerializer desc.name) then
      sendFormatted w mimeType (w.serializeStream desc.name stream)
    else
      redstorePageNewWithMessage w .internalServerError (bytesOf "Failed to create serialiser.")

/-- `format_bindings_query_result`. -/
def formatBindingsQueryResult (results : R) : ServiceM σ Response := do
  match ← ofExcept (redstoreNegotiateFormat (← get).request w.queryResultsFormatsDescriptions
      defaultResultsFormat) with
  | (none, _) =>
    redstorePageNewWithMessage w .notAcceptable
      (bytesOf "Results format not supported for bindings query type.")
  | (some desc, mimeType) =>
    if ← call (w.newFormatter results desc.name) then
      sendFormatted w mimeType (w.formatterWrite results desc.name)
    else
      redstorePageNewWithMessage w .internalServerError
        (bytesOf "Failed to create results formatter.")

end RedStore.Service
