/-
`redstore.c`: the handlers that every request passes, the redirect, and the table of
handlers.
-/
import RedStore.Service.Data
import RedStore.Service.Graphs
import RedStore.Service.Query

namespace RedStore.Service
open CLib RedHttp

variable {T R σ : Type} (w : World T R σ)

/-- `request_counter`. -/
def requestCounter : ServiceM σ (Option Response) := do
  modifyApp fun app => { app with requestCount := (app.requestCount + 1) % longRange }
  pure none

/-- `request_log`, which only prints. -/
def requestLog : ServiceM σ (Option Response) := pure none

/-- The redirect that `remove_trailing_slash` makes for a path. -/
def trailingSlashResponse (path : CString) : Except Fault (Option Response) :=
  match path.bytes.getLast? with
  -- `path[path_len - 1]` of an empty path
  | none => .error .outOfBounds
  | some last =>
    if last = ch '/' then
      if w.heap.malloc path.strlen then
        -- `strcpy` stores a terminator behind the buffer
        if w.slack path.strlen then
          .ok (redhttpResponseNewRedirect w.heap (CString.ofBytes path.bytes.dropLast)
            .movedPermanently)
        else .error .bufferOverflow
      else .ok none
    else .ok none

/-- `remove_trailing_slash`. -/
def removeTrailingSlash : ServiceM σ (Option Response) := do
  match (← get).request.path with
  | none => throw .nullPointer
  | some path => ofExcept (trailingSlashResponse w path)

/-- `handle_not_found`. -/
def handleNotFound : ServiceM σ (Option Response) :=
  some <$> redstorePageNewWithMessage w .notFound (bytesOf "Unsupported path.")

/-- A handler of the table: NULL for the method or the path takes any. -/
def route (method path : Option String) (func : ServiceM σ (Option Response)) :
    Handler (App σ) := ⟨method.map CString.lit, path.map CString.lit, func⟩

/-- The table of handlers that `redstore_setup_http_server` makes. -/
def redstoreHandlers : List (Handler (App σ)) := [
  route none none requestCounter,
  route none none requestLog,
  route none none resetErrorBuffer,
  route (some "GET") (some "/query") (handleQuery w),
  route (some "GET") (some "/sparql") (handleSparql w),
  route (some "GET") (some "/sparql/") (handleSparql w),
  route (some "POST") (some "/query") (handleQuery w),
  route (some "POST") (some "/sparql") (handleSparql w),
  route (some "POST") (some "/sparql/") (handleSparql w),
  route (some "HEAD") (some "/data*") (handleDataHead w),
  route (some "GET") (some "/data*") (handleDataGet w),
  route (some "PUT") (some "/data*") (handleDataPut w),
  route (some "POST") (some "/data*") (handleDataPost w),
  route (some "DELETE") (some "/data*") (handleDataDelete w),
  route (some "GET") (some "/insert") (handlePageUpdateForm w "Insert Triples"),
  route (some "POST") (some "/insert") (handleInsertPost w),
  route (some "GET") (some "/delete") (handlePageUpdateForm w "Delete Triples"),
  route (some "POST") (some "/delete") (handleDeletePost w),
  route (some "GET") (some "/graphs") (handleGraphIndex w),
  route (some "GET") (some "/load") (handlePageLoadForm w),
  route (some "POST") (some "/load") (handleLoadPost w),
  route (some "GET") (some "/") (handlePageHome w),
  route (some "GET") (some "/description") (handleDescriptionGet w),
  route (some "GET") (some "/favicon.ico") (handleImageFavicon w),
  route (some "GET") (some "/robots.txt") (handlePageRobotsTxt w),
  route (some "GET") none (removeTrailingSlash w),
  route none none (handleNotFound w)]

/-- The signature of the server. -/
def serverSignature : CString := CString.lit "RedStore/0.5.5"

/-- `redhttp_server_dispatch_request` with the handlers of the program. -/
def dispatchRequest : ServiceM σ (Option Response) :=
  redhttpServerDispatchRequest w.heap (redstoreHandlers w)

/-- `redhttp_server_handle_request` with the handlers of the program. -/
def handleRequest : ServiceM σ Response :=
  redhttpServerHandleRequest w.heap w.now (redstoreHandlers w)

end RedStore.Service
