/-
`graphs.c`: the list of the named graphs.
-/
import RedStore.Service.Pages

namespace RedStore.Service
open CLib RedHttp

variable {T R σ : Type} (w : World T R σ)

/-- `server_root_url`. -/
def serverRootUrl : ServiceM σ CString := do
  let host ← onRequest redhttpRequestGetHost
  pure (CString.lit "http://" ++ host ++ CString.lit "/")

/-- The list item for a graph in `handle_html_graph_index`. -/
def appendGraphItem (rootUrl : CString) (page : Page) (uri : CString) :
    Except Fault Page :=
  if strstr uri.bytes rootUrl.bytes then
    -- direct graph identification
    .ok (((((page.appendString "<li><a href=\"").appendEscaped w uri.bytes).appendString
      "\">").appendEscaped w uri.bytes).appendString "</a></li>\n")
  else do
    -- indirect graph identification
    let escaped ← redhttpUrlEscape uri.bytes
    .ok (((((page.appendString "<li><a href=\"/data/?graph=").appendEscaped w
      (CString.ofBytes escaped).bytes).appendString "\">").appendEscaped w
      uri.bytes).appendString "</a></li>\n")

lemma appendGraphItem_response {w : World T R σ} {rootUrl : CString} {page page' : Page}
    {uri : CString}
    (h : appendGraphItem w rootUrl page uri = .ok page') : page'.response = page.response := by
  rw [appendGraphItem] at h
  split at h
  · cases h
    rfl
  · cases hescaped : redhttpUrlEscape uri.bytes with
    | error e => simp [hescaped, bind, Except.bind] at h
    | ok escaped =>
      simp only [hescaped, bind, Except.bind, Except.ok.injEq] at h
      subst h
      rfl

/-- The loop of `handle_html_graph_index`. -/
def appendGraphItems (rootUrl : CString) : Stream Node → Page → ServiceM σ Page
  | [], page => pure page
  | .log m :: iterator, page => do
    redlandLogHandler m
    appendGraphItems rootUrl iterator page
  | .object none :: _, page => pure page
  | .object (some node) :: iterator, page =>
    match node.getUri with
    | none => pure page
    | some uri => do
      let page ← ofExcept (appendGraphItem w rootUrl page uri)
      appendGraphItems rootUrl iterator page

/-- `!librdf_iterator_end(iterator)`: there is an object left. -/
def hasObject {T : Type} (iterator : Stream T) : Bool :=
  iterator.any fun event => match event with
    | .object _ => true
    | .log _ => false

/-- The messages of an iterator that has no object left. -/
def logRest : Stream Node → ServiceM σ Unit
  | [] => pure ()
  | .log m :: iterator => do
    redlandLogHandler m
    logRest iterator
  | .object _ :: _ => pure ()

/-- `handle_html_graph_index`. -/
def handleHtmlGraphIndex (iterator : Stream Node) : ServiceM σ Response := do
  let page := redstorePageNew .ok (bytesOf "Named Graphs")
  let rootUrl ← serverRootUrl
  if hasObject iterator then
    let page ← appendGraphItems w rootUrl iterator (page.appendString "<ul>\n")
    pure (redstorePageEnd w ((page.appendString "</ul>\n").appendString
      "<p>This document is also available as <a href=\"/graphs?format=text\">plain text</a>.</p>\n"))
  else
    logRest iterator
    pure (redstorePageEnd w (page.appendString "<p>No named graphs.</p>\n"))

/-- The loop of `handle_text_graph_index`. -/
def writeGraphLines : Stream Node → ServiceM σ Unit
  | [] => pure ()
  | .log m :: iterator => do
    redlandLogHandler m
    writeGraphLines iterator
  | .object none :: _ => pure ()
  | .object (some node) :: iterator =>
    match node.getUri with
    | none => pure ()
    | some uri => do
      onRequest (fwrite (uri.bytes ++ bytesOf "\n"))
      writeGraphLines iterator

/-- `handle_text_graph_index`. -/
def handleTextGraphIndex (iterator : Stream Node) : ServiceM σ Response := do
  let response := redhttpResponseNewWithType .ok (CString.lit "text/plain")
  let response ← onRequest (redhttpResponseSend w.now response)
  writeGraphLines iterator
  pure response

/-- `handle_graph_index`. -/
def handleGraphIndex : ServiceM σ (Option Response) := do
  let formatStr ← ofExcept (redstoreNegotiateString (← get).request supportedFormats
    (CString.lit "text/plain"))
  match ← call w.storageGetContexts with
  | none =>
    some <$> redstorePageNewWithMessage w .internalServerError
      (bytesOf "Failed to get list of graphs.")
  | some iterator =>
    if ← ofExcept (redstoreIsTextFormat formatStr) then
      some <$> handleTextGraphIndex w iterator
    else if ← ofExcept (redstoreIsHtmlFormat formatStr) then
      some <$> handleHtmlGraphIndex w iterator
    else
      some <$> redstorePageNewWithMessage w .notAcceptable
        (bytesOf "No acceptable format supported.")

end RedStore.Service
