/-
`pages.c` and `images.c`: the pages that are always the same, the forms, and the icon.
-/
import RedStore.Service.Pages

namespace RedStore.Service
open CLib RedHttp

variable {T R σ : Type} (w : World T R σ)

/-- Strings appended one after the other. -/
def Page.appendLines (page : Page) (strs : List String) : Page :=
  strs.foldl Page.appendString page

/-- A header for the response of a page. -/
def Page.addHeader (page : Page) (key : HeaderName) (value : Option CString) : Page :=
  { page with response := redhttpResponseAddHeader page.response key value }

/-- A page that was last modified when the program was built. -/
def staticPage (title : String) : Page :=
  (redstorePageNew .ok (bytesOf title)).addHeader HeaderName.lastModified (some w.buildTime)

/-- `handle_page_home`. -/
def handlePageHome : ServiceM σ (Option Response) :=
  pure (some (redstorePageEnd w ((staticPage w "RedStore").appendLines [
    "<ul>\n",
    "  <li><a href=\"/query\">Query Form</a></li>\n",
    "  <li><a href=\"/graphs\">List Named Graphs</a></li>\n",
    "  <li>Update:<ul>",
    "    <li><a href=\"/load\">Load URI</a></li>",
    "    <li><a href=\"/insert\">Insert Triples</a></li>",
    "    <li><a href=\"/delete\">Delete Triples</a></li>",
    "  </ul></li>\n",
    "  <li><a href=\"/data?default&amp;format=nquads\">Download Dump</a></li>\n",
    "  <li><a href=\"/description\">Service Description</a></li>\n",
    "</ul>\n"])))

/-- A response with data that is part of the program. -/
def staticResponse (type : String) (content : List UInt8) (h : content ≠ []) : Response :=
  redhttpResponseSetContent (redhttpResponseAddHeader
    (redhttpResponseNewWithType .ok (CString.lit type)) HeaderName.lastModified
    (some w.buildTime)) content h

/-- `handle_page_robots_txt`. -/
def handlePageRobotsTxt : ServiceM σ (Option Response) :=
  pure (some (staticResponse w "text/plain" (bytesOf "User-agent: *\nDisallow: /\n") (by decide)))

/-! ### Forms -/

/-- The option of `syntax_select_list` for a description. -/
def appendOption (defaultName : Option CString) (page : Page) (desc : Description) : Page :=
  match desc.label with
  | none => page
  | some label =>
    let page := ((page.appendString "<option value=\"").appendBytes desc.name.bytes).appendString "\""
    let page := if defaultName = some desc.name then
      page.appendString " selected=\"selected\"" else page
    ((page.appendString ">").appendEscaped w label.bytes).appendString "</option>\n"

/-- The options of `syntax_select_list`, which has no field name within another list. -/
def syntaxOptions (defaultName : Option CString) (descs : List Description) (page : Page) : Page :=
  descs.foldl (appendOption w defaultName) page

/-- `syntax_select_list` with a field name. -/
def syntaxSelectList (fieldName : String) (defaultName : Option CString)
    (descs : List Description) (page : Page) : Page :=
  (syntaxOptions w defaultName descs
    (page.appendLines ["<select name=\"", fieldName, "\">\n"])).appendString "</select>\n"

/-- `DEFAULT_QUERY_LANGUAGE`. -/
def defaultQueryLanguage : CString := CString.lit "laqrs"

/-- `handle_page_query_form`. -/
def handlePageQueryForm : ServiceM σ (Option Response) :=
  let page := (staticPage w "Query Form").appendLines [
    "<form action=\"./query\" method=\"get\">\n",
    "<div><textarea name=\"query\" cols=\"80\" rows=\"18\">\n",
    "PREFIX rdf: &lt;http://www.w3.org/1999/02/22-rdf-syntax-ns#&gt;\n",
    "PREFIX rdfs: &lt;http://www.w3.org/2000/01/rdf-schema#&gt;\n\n",
    "SELECT * WHERE \x7b\n GRAPH ?g \x7b?s ?p ?o\x7d\n\x7d LIMIT 10\n",
    "</textarea></div>\n",
    "<div class=\"buttons\">\n",
    "Query Language: "]
  let page := syntaxSelectList w "lang" (some defaultQueryLanguage) w.queryLanguageDescriptions page
  let page := page.appendLines [
    "<br />",
    "Result Format: ",
    "<select name=\"format\">\n",
    "<optgroup label=\"Query Results Formats\">\n"]
  let page := syntaxOptions w (some (CString.lit "html")) w.queryResultsFormatsDescriptions page
  let page := page.appendLines ["</optgroup>\n", "<optgroup label=\"RDF Formats\">\n"]
  let page := syntaxOptions w none w.serializerDescriptions page
  let page := page.appendLines [
    "</optgroup>\n",
    "</select>\n",
    "<br />",
    "<input type=\"reset\" /> ",
    "<input type=\"submit\" value=\"Execute\" />\n",
    "</div></form>\n"]
  pure (some (redstorePageEnd w page))

/-- The form element of `handle_page_update_form`; a NULL path would end the arguments of
`redstore_page_append_strings` there. -/
def appendFormStart (action : Option CString) (page : Page) : Page :=
  let page := page.appendString "<form method=\"post\" action=\""
  match action with
  | some action => (page.appendBytes action.bytes).appendString "\">\n"
  | none => page

/-- `handle_page_update_form`, for a title. -/
def handlePageUpdateForm (title : String) : ServiceM σ (Option Response) := do
  let action := (← get).request.path
  let page := (appendFormStart action (staticPage w title)).appendLines [
    "<div><textarea name=\"content\" cols=\"80\" rows=\"18\">\n",
    "&lt;http://example.com/&gt; &lt;http://purl.org/dc/terms/title&gt; \"Example Web Page\" .\n",
    "</textarea></div>\n",
    "<div class=\"buttons\">\n",
    "Triples syntax: "]
  let page := syntaxSelectList w "content-type" (some (CString.lit "ntriples")) w.parserDescriptions
    page
  let page := page.appendLines [
    "<br />",
    "<label for=\"graph\">Graph:</label> <input id=\"graph\" name=\"graph\" type=\"text\" size=\"40\" /> <i>(optional)</i><br />\n",
    "<label for=\"base-uri\">Base URI:</label> <input id=\"base-uri\" name=\"base-uri\" type=\"text\" size=\"40\" /> <i>(optional)</i><br />\n",
    "<input type=\"reset\" /> <input type=\"submit\" />\n",
    "</div></form>\n"]
  pure (some (redstorePageEnd w page))

/-- `handle_page_load_form`. -/
def handlePageLoadForm : ServiceM σ (Option Response) :=
  pure (some (redstorePageEnd w ((staticPage w "Load URI").appendLines [
    "<form method=\"post\" action=\"/load\"><div>\n",
    "<label for=\"uri\">URI:</label> <input id=\"uri\" name=\"uri\" type=\"text\" size=\"40\" /><br />\n",
    "<label for=\"graph\">Graph:</label> <input id=\"graph\" name=\"graph\" type=\"text\" size=\"40\" /> <i>(optional)</i><br />\n",
    "<label for=\"base-uri\">Base URI:</label> <input id=\"base-uri\" name=\"base-uri\" type=\"text\" size=\"40\" /> <i>(optional)</i><br />\n",
    "<input type=\"reset\" /> <input type=\"submit\" />\n",
    "</div></form>\n"])))

/-! ### The icon -/

/-- The icon of `images.c`. -/
def favicon : List UInt8 := [
  0x00, 0x00, 0x01, 0x00, 0x01, 0x00, 0x10, 0x10, 0x10, 0x00, 0x01, 0x00, 0x04, 0x00, 0x28, 0x01,
  0x00, 0x00, 0x16, 0x00, 0x00, 0x00, 0x28, 0x00, 0x00, 0x00, 0x10, 0x00, 0x00, 0x00, 0x20, 0x00,
  0x00, 0x00, 0x01, 0x00, 0x04, 0x00, 0x00, 0x00, 0x00, 0x00, 0x00, 0x00, 0x00, 0x00, 0x00, 0x00,
  0x00, 0x00, 0x00, 0x00, 0x00, 0x00, 0x00, 0x00, 0x00, 0x00, 0x00, 0x00, 0x00, 0x00, 0xdd, 0x7f,
  0x11, 0x00, 0x12, 0x14, 0x20, 0x00, 0x38, 0x2a, 0x2d, 0x00, 0xf2, 0xbd, 0x33, 0x00, 0x0c, 0x15,
  0x4a, 0x00, 0x54, 0x49, 0x4a, 0x00, 0x10, 0x18, 0x6f, 0x00, 0x88, 0x79, 0x70, 0x00, 0x24, 0x36,
  0x97, 0x00, 0xc4, 0xba, 0xa4, 0x00, 0x16, 0x1a, 0xaa, 0x00, 0xf8, 0xf0, 0xc0, 0x00, 0x68, 0x79,
  0xc1, 0x00, 0x26, 0x36, 0xd4, 0x00, 0x19, 0x1e, 0xd6, 0x00, 0x32, 0x4f, 0xdb, 0x00, 0x00, 0x09,
  0x75, 0x55, 0x55, 0x57, 0x90, 0x00, 0x07, 0x11, 0x44, 0x66, 0x6a, 0x61, 0x11, 0x70, 0x1a, 0xee,
  0xee, 0xee, 0xe9, 0xfe, 0xee, 0xa1, 0x1e, 0xaa, 0xaa, 0x6e, 0x30, 0x3d, 0xaa, 0xe2, 0x2e, 0xaa,
  0xdd, 0xe5, 0x39, 0x0d, 0xaa, 0xe2, 0x2e, 0xaf, 0x00, 0x37, 0xe3, 0xfe, 0xaa, 0xe2, 0x2e, 0xe9,
  0x30, 0x7e, 0xe7, 0xaa, 0xaa, 0xe2, 0x2d, 0xaa, 0xb0, 0x07, 0xd3, 0xda, 0xaa, 0xd2, 0x2d, 0x8a,
  0xae, 0xe7, 0x05, 0x3d, 0xaa, 0xd2, 0x2d, 0xa8, 0xaa, 0xae, 0xb0, 0x0f, 0xaa, 0xd2, 0x2f, 0xdd,
  0xff, 0xfe, 0xcb, 0xfe, 0xfd, 0xf2, 0x2f, 0x86, 0x44, 0x44, 0x46, 0x44, 0x68, 0xf2, 0x14, 0x44,
  0x68, 0x88, 0x88, 0x86, 0x44, 0x42, 0x1d, 0xff, 0xff, 0xff, 0xff, 0xff, 0xff, 0xd1, 0x07, 0x14,
  0x46, 0x68, 0x86, 0x64, 0x11, 0x70, 0x00, 0x09, 0x75, 0x55, 0x55, 0x57, 0x90, 0x00, 0xe0, 0x07,
  0x00, 0x00, 0x80, 0x01, 0x00, 0x00, 0x00, 0x00, 0x00, 0x00, 0x00, 0x00, 0x00, 0x00, 0x00, 0x00,
  0x00, 0x00, 0x00, 0x00, 0x00, 0x00, 0x00, 0x00, 0x00, 0x00, 0x00, 0x00, 0x00, 0x00, 0x00, 0x00,
  0x00, 0x00, 0x00, 0x00, 0x00, 0x00, 0x00, 0x00, 0x00, 0x00, 0x00, 0x00, 0x00, 0x00, 0x00, 0x00,
  0x00, 0x00, 0x00, 0x00, 0x00, 0x00, 0x80, 0x01, 0x00, 0x00, 0xe0, 0x07, 0x00, 0x00]

/-- `handle_image_favicon`. -/
def handleImageFavicon : ServiceM σ (Option Response) :=
  pure (some (staticResponse w "image/x-icon" favicon (List.cons_ne_nil _ _)))

/-! ### The responses of pages -/

@[simp] lemma appendLines_response (page : Page) (strs : List String) :
    (page.appendLines strs).response = page.response := by
  induction strs generalizing page with
  | nil => rfl
  | cons str strs ih => exact ih (page.appendString str)

@[simp] lemma appendOption_response (defaultName : Option CString) (page : Page)
    (desc : Description) : (appendOption w defaultName page desc).response = page.response := by
  rw [appendOption]
  split
  · rfl
  · split <;> rfl

@[simp] lemma syntaxOptions_response (defaultName : Option CString) (descs : List Description)
    (page : Page) : (syntaxOptions w defaultName descs page).response = page.response := by
  induction descs generalizing page with
  | nil => rfl
  | cons desc descs ih => exact (ih _).trans (appendOption_response w defaultName page desc)

@[simp] lemma syntaxSelectList_response (fieldName : String) (defaultName : Option CString)
    (descs : List Description) (page : Page) :
    (syntaxSelectList w fieldName defaultName descs page).response = page.response := by
  simp [syntaxSelectList]

@[simp] lemma appendFormStart_response (action : Option CString) (page : Page) :
    (appendFormStart action page).response = page.response := by
  unfold appendFormStart
  cases action <;> rfl

end RedStore.Service
