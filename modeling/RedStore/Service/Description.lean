/-
`description.c`: the description of the service, as a page or as RDF.

The RDF is put into a model of its own, statement by statement; a statement with a node that
could not be made is not added.  Memory for blank nodes is taken to be available.
-/
import RedStore.Service.Formatters
import RedStore.Service.Forms

namespace RedStore.Service
open CLib RedHttp

variable {T R σ : Type} (w : World T R σ)

/-! ### The statements -/

/-- A name in a namespace. -/
def localName (ns name : String) : Term := .uri (CString.lit (ns ++ name))

def formatNs : String := "http://www.w3.org/ns/formats/"
def sdNs : String := "http://www.w3.org/ns/sparql-service-description#"
def voidNs : String := "http://rdfs.org/ns/void#"
def rdfNs : String := "http://www.w3.org/1999/02/22-rdf-syntax-ns#"
def rdfsNs : String := "http://www.w3.org/2000/01/rdf-schema#"

/-- A model under construction: its statements and the number of blank nodes made for it. -/
structure DescriptionModel where
  triples : List Statement := []
  blanks : ℕ := 0

/-- `librdf_new_node`. -/
def DescriptionModel.newBlank (m : DescriptionModel) : Term × DescriptionModel :=
  (.blank m.blanks, { m with blanks := m.blanks + 1 })

/-- `librdf_model_add` of three nodes, the last of which may be NULL. -/
def DescriptionModel.add (m : DescriptionModel) (subject predicate : Term) (object : Option Term) :
    DescriptionModel :=
  match object with
  | some object => { m with triples := m.triples ++ [⟨subject, predicate, object⟩] }
  | none => m

/-- `librdf_new_node_from_uri_string`, as a node of a statement. -/
def uriTerm (uri : CString) : Option Term :=
  (w.newNodeFromUriString uri).bind fun node => node.getUri.map Term.uri

/-- The node for a format, and the URIs of its description that are left; `none` is the
failure to make it. -/
def formatNode (desc : Description) (m : DescriptionModel) :
    Option (Term × DescriptionModel × List CString) :=
  match desc.uriStrings with
  | uri :: uris =>
    if (bytesOf formatNs).isPrefixOf uri.bytes then
      (uriTerm w uri).map fun node => (node, m, uris)
    else some (m.newBlank.1, m.newBlank.2, uri :: uris)
  | [] => some (m.newBlank.1, m.newBlank.2, [])

/-- The URIs of a format: the first defines it, the others say more. -/
def addFormatUris (node : Term) (uris : List CString) (m : DescriptionModel) : DescriptionModel :=
  match uris with
  | [] => m
  | uri :: uris =>
    uris.foldl (fun m uri => m.add node (localName rdfsNs "seeAlso") (uriTerm w uri))
      (m.add node (localName rdfsNs "isDefinedBy") (uriTerm w uri))

/-- The round of `sd_add_format_descriptions` for a format whose node has been made. -/
def addFormat (service : Term) (type : String) (desc : Description) (node : Term)
    (uris : List CString) (m : DescriptionModel) : DescriptionModel :=
  let m := m.add node (localName rdfNs "type") (some (localName formatNs "Format"))
  let m := m.add service (localName sdNs type) (some node)
  let m := desc.names.foldl (fun m name =>
    m.add node (localName rdfsNs "label") (some (.literal name))) m
  let m := match desc.label with
    | some label => m.add node (localName rdfsNs "comment") (some (.literal label))
    | none => m
  let m := desc.mimeTypes.foldl (fun m mimeType =>
    m.add node (localName formatNs "media_type") (some (.literal mimeType.1))) m
  addFormatUris w node uris m

/-- `sd_add_format_descriptions`. -/
def sdAddFormatDescriptions (service : Term) (type : String) :
    List Description → DescriptionModel → DescriptionModel
  | [], m => m
  | desc :: descs, m =>
    if desc.name = CString.lit "guess" then sdAddFormatDescriptions service type descs m
    else
      match formatNode w desc m with
      | none => m
      | some (node, m, uris) =>
        sdAddFormatDescriptions service type descs (addFormat w service type desc node uris m)

/-- The node for a query language that is one of SPARQL. -/
def languageNode (desc : Description) : Option Term :=
  desc.names.findSome? fun name =>
    if name = CString.lit "sparql10" then some (localName sdNs "SPARQL10Query")
    else if name = CString.lit "sparql11-query" then some (localName sdNs "SPARQL11Query")
    else none

/-- `sd_add_query_languages`. -/
def sdAddQueryLanguages (service : Term) (descs : List Description) (m : DescriptionModel) :
    DescriptionModel :=
  descs.foldl (fun m desc =>
    match languageNode desc with
    | none => m
    | some lang =>
      let m := m.add service (localName sdNs "supportedLanguage") (some lang)
      let m := m.add lang (localName rdfsNs "comment") (desc.label.map Term.literal)
      desc.uriStrings.foldl (fun m uri => m.add lang (localName rdfsNs "seeAlso") (uriTerm w uri)) m)
    m

/-- `sd_add_dataset_description`, for the size of the storage. -/
def sdAddDatasetDescription (service : Term) (tripleCount : ℤ) (m : DescriptionModel) :
    DescriptionModel :=
  let (dataset, m) := m.newBlank
  let m := m.add service (localName sdNs "defaultDatasetDescription") (some dataset)
  let m := m.add dataset (localName rdfNs "type") (some (localName sdNs "Dataset"))
  let (defaultGraph, m) := m.newBlank
  let m := m.add dataset (localName sdNs "defaultGraph") (some defaultGraph)
  let m := m.add defaultGraph (localName rdfNs "type") (some (localName sdNs "Graph"))
  if tripleCount ≥ 0 then
    m.add defaultGraph (localName voidNs "triples") (some (.integer tripleCount))
  else m

/-- `sd_get_endpoint_node`. -/
def sdGetEndpointNode (requestUrl : Option CString) : Option Term :=
  (requestUrl.bind w.newUri).bind fun requestUri =>
    (w.newUriRelativeToBase requestUri (CString.lit "sparql")).bind fun endpointUri =>
      (w.newNodeFromUri endpointUri).bind fun node => node.getUri.map Term.uri

/-- The comment of a service description, in `COMMENT_MAX_LEN` bytes. -/
def serviceComment : CString :=
  CString.ofBytes ((bytesOf "RedStore 0.5.5 endpoint using the '" ++ w.storageType.bytes ++
    bytesOf "' storage module.").take 127)

/-- `create_service_description`: the statements of the model. -/
def createServiceDescription (storage : σ) (requestUrl : Option CString) : List Statement :=
  let m : DescriptionModel := {}
  let (service, m) := m.newBlank
  let m := m.add service (localName rdfNs "type") (some (localName sdNs "Service"))
  let m := sdAddFormatDescriptions w service "inputFormat" w.parserDescriptions m
  let m := sdAddFormatDescriptions w service "resultFormat" w.serializerDescriptions m
  let m := sdAddFormatDescriptions w service "resultFormat" w.queryResultsFormatsDescriptions m
  let m := sdAddQueryLanguages w service w.queryLanguageDescriptions m
  let m := sdAddDatasetDescription service (w.storageSize storage) m
  let m := m.add service (localName rdfsNs "label") (some (.literal w.storageName))
  let m := m.add service (localName rdfsNs "comment") (some (.literal (serviceComment w)))
  let m := m.add service (localName sdNs "endpoint") (sdGetEndpointNode w requestUrl)
  -- the default graph is the union of all other graphs
  let m := m.add service (localName sdNs "feature") (some (localName sdNs "UnionDefaultGraph"))
  m.triples

/-! ### The page -/

/-- The cell of `description_html_table` for a name. -/
def appendName (page : Page) (name : CString) : Page :=
  (page.appendBytes name.bytes).appendString "<br />\n"

/-- The cell of `description_html_table` for a media type. -/
def appendMimeType (page : Page) (mimeType : CString × ℕ) : Page :=
  let page := page.appendBytes mimeType.1.bytes
  let page := if mimeType.2 ≠ 10 then
    ((((page.appendString " <i>(").appendDecimal (mimeType.2 / 10 : ℕ)).appendString
      ".").appendDecimal (mimeType.2 % 10 : ℕ)).appendString ")</i>" else page
  page.appendString "<br />\n"

/-- `redstore_page_append_escaped` with a quote. -/
def Page.appendQuoted (page : Page) (str : List UInt8) : Page :=
  { page with buffer := page.buffer ++ w.xmlEscape str (ch '"') }

/-- The cell of `description_html_table` for a URI. -/
def appendUriString (page : Page) (uri : CString) : Page :=
  (((((page.appendString "<a href=\"").appendQuoted w uri.bytes).appendString
    "\">").appendEscaped w uri.bytes).appendString "</a>").appendString "<br />\n"

/-- A row of `description_html_table`. -/
def appendDescription (page : Page) (desc : Description) : Page :=
  let page := page.appendLines ["<tr>", "<td>"]
  let page := desc.names.foldl appendName page
  let page := page.appendLines ["</td>\n", "<td>"]
  let page := match desc.label with
    | some label => page.appendBytes label.bytes
    | none => page
  let page := page.appendLines ["</td>\n", "<td>"]
  let page := desc.mimeTypes.foldl appendMimeType page
  let page := page.appendLines ["</td>\n", "<td>"]
  let page := desc.uriStrings.foldl (appendUriString w) page
  page.appendLines ["</td>\n", "</tr>\n"]

/-- `description_html_table`. -/
def descriptionHtmlTable (title : String) (descs : List Description) (page : Page) : Page :=
  let page := page.appendLines ["<h2>", title, "</h2>\n", "<table border=\"1\">\n",
    "<tr><th>Name</th><th>Description</th><th>MIME Type</th><th>URIs</th></tr>\n"]
  (descs.foldl (appendDescription w) page).appendString "</table>\n"

/-- What is done with a page for each entry of a list keeps the response, if each does. -/
lemma foldl_response {α : Type} {f : Page → α → Page} (h : ∀ page a, (f page a).response =
    page.response) (as : List α) (page : Page) : (as.foldl f page).response = page.response := by
  induction as generalizing page with
  | nil => rfl
  | cons a as ih => exact (ih (f page a)).trans (h page a)

lemma appendMimeType_response (page : Page) (mimeType : CString × ℕ) :
    (appendMimeType page mimeType).response = page.response := by
  rw [appendMimeType]
  split <;> rfl

lemma appendDescription_response (page : Page) (desc : Description) :
    (appendDescription w page desc).response = page.response := by
  have hnames : (desc.names.foldl appendName (page.appendLines ["<tr>", "<td>"])).response =
      page.response :=
    (foldl_response (f := appendName) (fun _ _ => rfl) desc.names _).trans
      (appendLines_response page _)
  simp only [appendDescription, appendLines_response]
  rw [foldl_response (f := appendUriString w) (fun _ _ => rfl), appendLines_response,
    foldl_response appendMimeType_response, appendLines_response]
  cases desc.label with
  | none => rw [appendLines_response, hnames]
  | some label => rw [appendBytes_response, appendLines_response, hnames]

@[simp] lemma descriptionHtmlTable_response (title : String) (descs : List Description)
    (page : Page) : (descriptionHtmlTable w title descs page).response = page.response := by
  simp only [descriptionHtmlTable, appendString_response]
  rw [foldl_response (appendDescription_response w), appendLines_response]

/-- The loop of `context_count`; a NULL object is counted too. -/
def countContexts : Stream Node → ℕ → ServiceM σ ℕ
  | [], count => pure count
  | .log m :: iterator, count => do
    redlandLogHandler m
    countContexts iterator count
  | .object _ :: iterator, count => countContexts iterator (count + 1)

/-- `context_count`. -/
def contextCount : ServiceM σ ℤ := do
  match ← call w.storageGetContexts with
  | none => pure (-1)
  | some iterator => Nat.cast <$> countContexts iterator 0

/-- A row of the table with information on the store. -/
def Page.appendRow (page : Page) (head : String) (cell : List UInt8) : Page :=
  ((page.appendLines ["<tr><th>", head, "</th><td>"]).appendBytes cell).appendString "</td></tr>\n"

@[simp] lemma appendRow_response (page : Page) (head : String) (cell : List UInt8) :
    (page.appendRow head cell).response = page.response := by
  simp [Page.appendRow]

/-- The page of `handle_html_description`, for the number of named graphs. -/
def descriptionPage (app : App σ) (contexts : ℤ) : Page :=
  let page := (redstorePageNew .ok (bytesOf "Service Description")).appendLines [
    "<h2>Store Information</h2>\n", "<table border=\"1\">\n"]
  let page := page.appendRow "Storage Name" w.storageName.bytes
  let page := page.appendRow "Storage Type" w.storageType.bytes
  let page := page.appendRow "Storage Options" w.publicStorageOptions.bytes
  let page := page.appendRow "Triple Count" (decimalInt (w.storageSize app.storage))
  let page := page.appendRow "Named Graph Count" (decimalInt contexts)
  let page := page.appendRow "HTTP Request Count" (decimalInt (intOfSize app.requestCount))
  let page := page.appendRow "Successful Import Count" (decimalInt (intOfSize app.importCount))
  let page := page.appendRow "SPARQL Query Count" (decimalInt (intOfSize app.queryCount))
  let page := page.appendString "</table>\n"
  let page := descriptionHtmlTable w "Query Languages" w.queryLanguageDescriptions page
  let page := descriptionHtmlTable w "Query Result Formats" w.queryResultsFormatsDescriptions page
  let page := descriptionHtmlTable w "Input RDF Formats" w.parserDescriptions page
  let page := descriptionHtmlTable w "Output RDF Formats" w.serializerDescriptions page
  page.appendLines ["<p>This document is also available as ",
    "<a href=\"description?format=turtle\">RDF</a>.</p>\n"]

lemma descriptionPage_response (app : App σ) (contexts : ℤ) :
    (descriptionPage w app contexts).response =
      redhttpResponseNewWithType .ok (CString.lit "text/html") := by
  unfold descriptionPage
  rw [appendLines_response, descriptionHtmlTable_response, descriptionHtmlTable_response,
    descriptionHtmlTable_response, descriptionHtmlTable_response, appendString_response]
  repeat rw [appendRow_response]
  rw [appendLines_response, redstorePageNew_response]

/-- `handle_html_description`. -/
def handleHtmlDescription : ServiceM σ Response := do
  let app := (← get).app
  let contexts ← contextCount w
  pure (redstorePageEnd w (descriptionPage w app contexts))

/-- `handle_description_get`. -/
def handleDescriptionGet : ServiceM σ (Option Response) := do
  match ← ofExcept (redstoreNegotiateFormat (← get).request w.serializerDescriptions
      (CString.lit "text/html")) with
  | (none, _) => some <$> handleHtmlDescription w
  | (some desc, _) =>
    if desc.name = CString.lit "html" then some <$> handleHtmlDescription w
    else
      let requestUrl ← onRequest redhttpRequestGetUrl
      if w.newTemporaryModel then
        match ← call (w.temporaryModelAsStream
            (createServiceDescription w (← get).app.storage requestUrl)) with
        | none => pure none
        | some stream => some <$> formatGraphStream w stream
      else pure none

end RedStore.Service
