/-
`query.c`: SPARQL queries.
-/
import RedStore.Service.Description

namespace RedStore.Service
open CLib RedHttp

variable {T R σ : Type} (w : World T R σ)

/-- The answer to a query by the kind of its results. -/
def formatResults : QueryResults T R → ServiceM σ Response
  | .bindings results => formatBindingsQueryResult w results
  | .graph (some stream) => formatGraphStream w stream
  | .graph none =>
    redstorePageNewWithMessage w .internalServerError
      (bytesOf "Failed to get query results graph.")
  | .boolean results => formatBindingsQueryResult w results
  | .syntaxResults =>
    redstorePageNewWithMessage w .notImplemented (bytesOf "Syntax results format is not supported.")
  | .unknown =>
    redstorePageNewWithMessage w .internalServerError (bytesOf "Unknown librdf results type.")

/-- `perform_query`. -/
def performQuery (queryString : CString) : ServiceM σ Response := do
  let lang := ((← get).request.getArgument (CString.lit "lang")).getD defaultQueryLanguage
  if ← call (w.newQuery lang queryString) then
    match ← call (w.queryExecute lang queryString) with
    | none =>
      redstorePageNewWithMessage w .internalServerError
        (bytesOf "There was an error while executing the query.")
    | some results =>
      modifyApp fun app => { app with queryCount := (app.queryCount + 1) % longRange }
      formatResults w results
  else
    redstorePageNewWithMessage w .internalServerError
      (bytesOf "There was an error while creating the query.")

/-- `handle_query`. -/
def handleQuery : ServiceM σ (Option Response) := do
  match (← get).request.getArgument (CString.lit "query") with
  | some queryString => some <$> performQuery w queryString
  | none => handlePageQueryForm w

/-- `handle_sparql`. -/
def handleSparql : ServiceM σ (Option Response) := do
  let r := (← get).request
  match r.getArgument (CString.lit "query") with
  | some queryString => some <$> performQuery w queryString
  | none =>
    match r.method with
    | none => throw .nullPointer
    | some method =>
      if method = CString.lit "GET" then handleDescriptionGet w
      else some <$> redstorePageNewWithMessage w .badRequest (bytesOf "Missing query string.")

end RedStore.Service
