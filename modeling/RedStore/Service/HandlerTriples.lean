/-
The rules carried through all handlers, the table and the dispatch of a request.
-/
import RedStore.Service.HandlerRules

namespace RedStore.Service
open CLib RedHttp

variable {T R σ : Type} {w : World T R σ} {I : Conn (App σ) → Prop}
  {U : Option CString → Prop} {S Q : Response → Conn (App σ) → Prop}

namespace StepRules

/-! ### Formats -/

lemma sendFormatted (h : StepRules w I U S Q) {mimeType : Option CString}
    (hmime : ∀ type ∈ mimeType, OfferedType w type) (write : σ → Answer σ (Bool × List UInt8)) :
    Triple I (Service.sendFormatted w mimeType write) Q I :=
  triple_bind (h.send (.formatted hmime)) fun response =>
    triple_bind (h.sentCall response write) fun written =>
      triple_bind (h.sentWrite response written.2) fun _ => triple_pure fun _ hs => h.sent hs

lemma formatGraphStream (h : StepRules w I U S Q) (stream : Stream T) :
    Triple I (Service.formatGraphStream w stream) Q I := by
  refine triple_bind maintains_get fun c => triple_ofExcept_bind ?_ fun _ hc => hc
  rintro ⟨desc, mimeType⟩ hformat
  cases desc with
  | none => exact message_triple h _ _
  | some desc =>
    refine triple_bind (h.call _) fun created => triple_ite ?_ (message_triple h _ _)
    refine h.sendFormatted (fun type htype => ?_) _
    obtain ⟨desc, hdesc, hmem⟩ := redstoreNegotiateFormat_mem hformat type htype
    exact ⟨desc, by simp [hdesc], hmem⟩

lemma formatBindingsQueryResult (h : StepRules w I U S Q) (results : R) :
    Triple I (Service.formatBindingsQueryResult w results) Q I := by
  refine triple_bind maintains_get fun c => triple_ofExcept_bind ?_ fun _ hc => hc
  rintro ⟨desc, mimeType⟩ hformat
  cases desc with
  | none => exact message_triple h _ _
  | some desc =>
    refine triple_bind (h.call _) fun created => triple_ite ?_ (message_triple h _ _)
    refine h.sendFormatted (fun type htype => ?_) _
    obtain ⟨desc, hdesc, hmem⟩ := redstoreNegotiateFormat_mem hformat type htype
    exact ⟨desc, by simp [hdesc], hmem⟩

/-! ### Updates -/

lemma loadStreamIntoGraph (h : StepRules w I U S Q) (stream : Stream T) (graph : Option Node) :
    Triple I (Service.loadStreamIntoGraph w stream graph) Q I := by
  refine triple_bind (h.call _) fun failed => triple_ite (message_triple h _ _) ?_
  exact triple_bind h.inspect fun buffer => triple_ite (message_triple h _ _) (message_triple h _ _)

lemma loadStreamIntoNewGraph (h : StepRules w I U S Q) {url : Option CString} (hurl : U url)
    {n : ℕ} {node : Node}
    (hnode : graphNodeFor w url (some (CString.lit "/data/" ++ genidText n)) = some node)
    (stream : Stream T) : Triple I (Service.loadStreamIntoNewGraph w stream (some node)) Q I := by
  refine triple_bind (h.call _) fun failed => triple_ite (message_triple h _ _) ?_
  refine triple_bind h.inspect fun buffer => triple_ite (message_triple h _ _) ?_
  refine triple_bind (pageNewWithMessage_triple h _ _) fun response => triple_pure ?_
  rintro c ⟨hc, hpage⟩
  obtain ⟨type, htype, hheaders⟩ := hpage.headers
  refine h.built hc ⟨hpage.unsent, ?_⟩
  simp only [redhttpResponseAddHeader, hheaders]
  exact .located htype hurl hnode

lemma clearAndLoadStreamIntoGraph (h : StepRules w I U S Q) (stream : Stream T)
    (graph : Option Node) :
    Triple I (Service.clearAndLoadStreamIntoGraph w stream graph) Q I := by
  cases graph with
  | none => exact h.loadStreamIntoGraph stream none
  | some graph =>
    exact triple_bind (maintains_map (h.call _)) fun _ => h.loadStreamIntoGraph stream (some graph)

lemma deleteStatements (h : StepRules w I U S Q) (graph : Option Node) (stream : Stream T)
    (count : ℕ) : Maintains I (Service.deleteStatements w graph stream count) := by
  induction stream generalizing count with
  | nil => exact maintains_pure count
  | cons event stream ih =>
    cases event with
    | log m => exact triple_bind (h.log m) fun _ => ih count
    | object statement => exact triple_bind (h.call _) fun failed => ih _

lemma deleteStreamFromGraph (h : StepRules w I U S Q) (stream : Stream T)
    (graph : Option Node) : Triple I (Service.deleteStreamFromGraph w stream graph) Q I := by
  refine triple_bind (h.deleteStatements graph stream 0) fun count => ?_
  refine triple_bind h.inspect fun buffer => triple_ite (message_triple h _ _) ?_
  exact triple_ite (message_triple h _ _) (message_triple h _ _)

lemma parseDataFromBuffer (h : StepRules w I U S Q) (buffer : List UInt8)
    (parserName : CString) (graphNode : Option Node) {streamProc : StreamProcessor T σ}
    (hproc : ∀ stream, Triple I (streamProc stream graphNode) Q I) :
    Triple I (Service.parseDataFromBuffer w buffer parserName graphNode streamProc) Q I := by
  refine triple_bind maintains_get fun c => ?_
  cases chooseBaseUri w (c.request.getArgument (CString.lit "base-uri")) graphNode with
  | error message => exact message_triple h _ _
  | ok baseUri =>
    refine triple_bind (h.call _) fun created => triple_ite ?_ (message_triple h _ _)
    refine triple_bind (h.call _) fun stream => ?_
    cases stream with
    | none => exact message_triple h _ _
    | some stream => exact hproc stream

lemma handleLoadPost (h : StepRules w I U S Q) :
    Triple I (Service.handleLoadPost w) (Answers I Q) I := by
  refine triple_bind maintains_get fun c => ?_
  dsimp only
  cases c.request.getArgument (CString.lit "uri") with
  | none => exact someMessage_triple h _ _
  | some uriArg =>
    dsimp only
    cases loadUris w uriArg (c.request.getArgument (CString.lit "base-uri"))
        (c.request.getArgument (CString.lit "graph")) with
    | error message => exact someMessage_triple h _ _
    | ok uris =>
      refine triple_bind (h.call _) fun created => triple_ite ?_ (someMessage_triple h _ _)
      refine triple_bind (h.call _) fun stream => ?_
      cases stream with
      | none => exact someMessage_triple h _ _
      | some stream =>
        dsimp only
        cases w.newNodeFromUri uris.2.2 with
        | none => exact someMessage_triple h _ _
        | some graph => exact triple_some (h.loadStreamIntoGraph stream (some graph))

lemma handleContentPost (h : StepRules w I U S Q) {streamProc : StreamProcessor T σ}
    (hproc : ∀ stream graph, Triple I (streamProc stream graph) Q I) :
    Triple I (Service.handleContentPost w streamProc) (Answers I Q) I := by
  refine triple_bind maintains_get fun c => ?_
  dsimp only
  cases c.request.getArgument (CString.lit "content") with
  | none => exact someMessage_triple h _ _
  | some content =>
    dsimp only
    cases graphArgumentNode w (c.request.getArgument (CString.lit "graph")) with
    | none => exact someMessage_triple h _ _
    | some graphNode =>
      exact triple_some (h.parseDataFromBuffer _ _ _ fun stream => hproc stream graphNode)

/-! ### The graph store -/

lemma redstoreGenid (h : StepRules w I U S Q) :
    Triple I (Service.redstoreGenid w) (fun id c => I c ∧ ∃ n, id = genidText n) I := by
  refine triple_bind maintains_get fun c => triple_bind (h.counters _ fun app => ?_) fun _ =>
    triple_pure fun _ hc => ⟨hc, _, rfl⟩
  exact ⟨_, _, _, rfl⟩

lemma newGraphNode (h : StepRules w I U S Q) (url : Option CString) :
    Triple I (Service.newGraphNode w url) (fun node c => I c ∧ ∀ graphNode ∈ node, ∃ n,
      graphNodeFor w url (some (CString.lit "/data/" ++ genidText n)) = some graphNode) I := by
  refine triple_bind h.redstoreGenid fun id => triple_pure ?_
  rintro c ⟨hc, n, rfl⟩
  exact ⟨hc, fun _ hnode => ⟨n, hnode⟩⟩

lemma findNewGraph (h : StepRules w I U S Q) (attempts : ℕ) :
    Triple I (Service.findNewGraph w attempts) (fun found c => I c ∧ ∀ node, found = .ok node →
      ∃ url n, U url ∧
        graphNodeFor w url (some (CString.lit "/data/" ++ genidText n)) = some node) I := by
  induction attempts with
  | zero => exact triple_pure fun _ hc => ⟨hc, by rintro _ ⟨⟩⟩
  | succ attempts ih =>
    refine triple_bind h.url fun url => ?_
    intro c hc
    refine triple_bind (h.newGraphNode url) (fun node => ?_) c hc.1
    cases node with
    | none => exact triple_pure fun _ hc => ⟨hc.1, by rintro _ ⟨⟩⟩
    | some graphNode =>
      rintro c' ⟨hc', hnode⟩
      refine triple_bind (h.call _) (fun contained => triple_ite ih ?_) c' hc'
      refine triple_pure fun _ hI => ⟨hI, ?_⟩
      rintro _ ⟨⟩
      obtain ⟨n, hn⟩ := hnode graphNode rfl
      exact ⟨url, n, hc.2, hn⟩

lemma getGraphNode (h : StepRules w I U S Q) : Maintains I (Service.getGraphNode w) :=
  triple_bind (h.url.mono (fun _ hc => hc) fun _ _ hc => hc.1) fun _ =>
    triple_bind maintains_get fun _ => maintains_pure _

lemma withGraphNode (h : StepRules w I U S Q) {onGraph : Node → ServiceM σ Response}
    (hgraph : ∀ node, Triple I (onGraph node) Q I) :
    Triple I (Service.withGraphNode w onGraph) Q I := by
  refine triple_bind h.getGraphNode fun node => ?_
  cases node with
  | none => exact message_triple h _ _
  | some node => exact hgraph node

lemma withTarget (h : StepRules w I U S Q) {onDefault : ServiceM σ Response}
    {onGraph : Node → ServiceM σ Response} (hdefault : Triple I onDefault Q I)
    (hgraph : ∀ node, Triple I (onGraph node) Q I) :
    Triple I (Service.withTarget w onDefault onGraph) (Answers I Q) I := by
  refine triple_bind maintains_get fun c => triple_ite (someMessage_triple h _ _) ?_
  refine triple_ite (someMessage_triple h _ _) (triple_ite (triple_some hdefault) ?_)
  exact triple_some (h.withGraphNode hgraph)

lemma ifContained (h : StepRules w I U S Q) (graphNode : Node) {onGraph : ServiceM σ Response}
    (hgraph : Triple I onGraph Q I) : Triple I (Service.ifContained w graphNode onGraph) Q I :=
  triple_bind (h.call _) fun _ => triple_ite hgraph (message_triple h _ _)

lemma handleDataHead (h : StepRules w I U S Q) :
    Triple I (Service.handleDataHead w) (Answers I Q) I := by
  have hok : Triple I (pure (redhttpResponseNew .ok) : ServiceM σ Response) Q I :=
    triple_built h ⟨rfl, .none⟩
  exact h.withTarget hok fun node => h.ifContained node hok

lemma formatStreamOf (h : StepRules w I U S Q) (message : String)
    (asStream : σ → Answer σ (Option (Stream T))) :
    Triple I (Service.formatStreamOf w message asStream) Q I := by
  refine triple_bind (h.call _) fun stream => ?_
  cases stream with
  | none => exact message_triple h _ _
  | some stream => exact h.formatGraphStream stream

lemma handleDataGet (h : StepRules w I U S Q) :
    Triple I (Service.handleDataGet w) (Answers I Q) I :=
  h.withTarget (h.formatStreamOf _ _) fun node => h.ifContained node (h.formatStreamOf _ _)

lemma removeGraphs (h : StepRules w I U S Q) (iterator : Stream Node) (err : ℕ) :
    Maintains I (Service.removeGraphs w iterator err) := by
  induction iterator generalizing err with
  | nil => exact maintains_pure err
  | cons event iterator ih =>
    match event with
    | .log m => exact triple_bind (h.log m) fun _ => ih err
    | .object none => exact maintains_pure err
    | .object (some graph) => exact triple_bind (h.call _) fun failed => ih _

lemma removeStatements (h : StepRules w I U S Q) (stream : Stream T) (err : ℕ) :
    Maintains I (Service.removeStatements w stream err) := by
  induction stream generalizing err with
  | nil => exact maintains_pure err
  | cons event stream ih =>
    match event with
    | .log m => exact triple_bind (h.log m) fun _ => ih err
    | .object none => exact maintains_pure err
    | .object (some statement) => exact triple_bind (h.call _) fun failed => ih _

lemma removeAllStatements (h : StepRules w I U S Q) :
    Triple I (Service.removeAllStatements w) Q I := by
  refine triple_bind (h.call _) fun iterator => ?_
  cases iterator with
  | none => exact message_triple h _ _
  | some iterator =>
    refine triple_bind (h.removeGraphs iterator 0) fun err => triple_bind (h.call _) fun stream => ?_
    cases stream with
    | none => exact message_triple h _ _
    | some stream =>
      refine triple_bind (h.removeStatements stream err) fun err => ?_
      have hfailed : Maintains I (errOrErrorBuffer err) :=
        triple_ite (maintains_pure true) (maintains_map h.inspect)
      refine triple_bind hfailed fun failed => ?_
      exact triple_ite (message_triple h _ _) (message_triple h _ _)

lemma handleDataDelete (h : StepRules w I U S Q) :
    Triple I (Service.handleDataDelete w) (Answers I Q) I :=
  h.withTarget h.removeAllStatements fun node => h.ifContained node
    (triple_bind (h.call _) fun _ => triple_ite (message_triple h _ _) (message_triple h _ _))

/-! ### Pages -/

/-- An HTML page that is finished, with the headers that a page starts with. -/
lemma triple_page (h : StepRules w I U S Q) {page : Page}
    (hpage : page.response = redhttpResponseNewWithType .ok (CString.lit "text/html")) :
    Triple I (pure (redstorePageEnd w page) : ServiceM σ Response) Q I := by
  refine triple_built h ⟨congrArg Response.headersSent hpage, ?_⟩
  have hheaders : (redstorePageEnd w page).headers =
      [⟨HeaderName.contentType.1, some (CString.lit "text/html")⟩] :=
    congrArg Response.headers hpage
  exact hheaders ▸ .typed (by decide)

/-- An HTML page with the date of the program. -/
lemma triple_staticPage (h : StepRules w I U S Q) (title : String) {page : Page}
    (hpage : page.response = (staticPage w title).response) :
    Triple I (pure (some (redstorePageEnd w page)) : ServiceM σ (Option Response))
      (Answers I Q) I := by
  refine triple_pure fun c hc => h.built hc ⟨congrArg Response.headersSent hpage, ?_⟩
  have hheaders : (redstorePageEnd w page).headers =
      [⟨HeaderName.contentType.1, some (CString.lit "text/html")⟩,
        ⟨HeaderName.lastModified.1, storedValue (some w.buildTime)⟩] :=
    congrArg Response.headers hpage
  exact hheaders ▸ .dated (by decide)

lemma handlePageHome (h : StepRules w I U S Q) :
    Triple I (Service.handlePageHome w) (Answers I Q) I :=
  h.triple_staticPage _ (appendLines_response _ _)

lemma handlePageQueryForm (h : StepRules w I U S Q) :
    Triple I (Service.handlePageQueryForm w) (Answers I Q) I :=
  h.triple_staticPage "Query Form" (by simp only [appendLines_response,
    syntaxOptions_response, syntaxSelectList_response])

lemma handlePageUpdateForm (h : StepRules w I U S Q) (title : String) :
    Triple I (Service.handlePageUpdateForm w title) (Answers I Q) I :=
  triple_bind maintains_get fun _ => h.triple_staticPage title
    (by simp only [appendLines_response, syntaxSelectList_response, appendFormStart_response])

lemma handlePageLoadForm (h : StepRules w I U S Q) :
    Triple I (Service.handlePageLoadForm w) (Answers I Q) I :=
  h.triple_staticPage _ (appendLines_response _ _)

lemma triple_staticResponse (h : StepRules w I U S Q) {type : String}
    (htype : CString.lit type ∈ builtTypes) {content : List UInt8} (hne : content ≠ []) :
    Triple I (pure (some (staticResponse w type content hne)) : ServiceM σ (Option Response))
      (Answers I Q) I := by
  refine triple_pure fun c hc => h.built hc ⟨rfl, ?_⟩
  have hheaders : (staticResponse w type content hne).headers =
      [⟨HeaderName.contentType.1, some (CString.lit type)⟩,
        ⟨HeaderName.lastModified.1, storedValue (some w.buildTime)⟩] := by
    simp [staticResponse, redhttpResponseSetContent, redhttpResponseAddHeader,
      redhttpResponseNewWithType_headers htype]
  exact hheaders ▸ .dated htype

lemma handlePageRobotsTxt (h : StepRules w I U S Q) :
    Triple I (Service.handlePageRobotsTxt w) (Answers I Q) I :=
  h.triple_staticResponse (by decide) _

lemma handleImageFavicon (h : StepRules w I U S Q) :
    Triple I (Service.handleImageFavicon w) (Answers I Q) I :=
  h.triple_staticResponse (by decide) _

/-! ### The list of graphs -/

lemma serverRootUrl (h : StepRules w I U S Q) : Maintains I (Service.serverRootUrl (σ := σ)) :=
  triple_bind h.host fun _ => maintains_pure _

lemma appendGraphItems (h : StepRules w I U S Q) (rootUrl : CString) (iterator : Stream Node)
    (page : Page) : Triple I (Service.appendGraphItems w rootUrl iterator page)
      (fun page' c => I c ∧ page'.response = page.response) I := by
  induction iterator generalizing page with
  | nil => exact triple_pure fun _ hc => ⟨hc, rfl⟩
  | cons event iterator ih =>
    match event with
    | .log m => exact triple_bind (h.log m) fun _ => ih page
    | .object none => exact triple_pure fun _ hc => ⟨hc, rfl⟩
    | .object (some node) =>
      unfold Service.appendGraphItems
      cases node.getUri with
      | none => exact triple_pure fun _ hc => ⟨hc, rfl⟩
      | some uri =>
        refine triple_ofExcept_bind (fun page' hpage => ?_) fun _ hc => hc
        refine (ih page').mono (fun _ hc => hc) ?_
        rintro page'' c ⟨hc, hresponse⟩
        exact ⟨hc, hresponse.trans (appendGraphItem_response hpage)⟩

lemma logRest (h : StepRules w I U S Q) (iterator : Stream Node) :
    Maintains I (Service.logRest (σ := σ) iterator) := by
  induction iterator with
  | nil => exact maintains_pure ()
  | cons event iterator ih =>
    match event with
    | .log m => exact triple_bind (h.log m) fun _ => ih
    | .object o => exact maintains_pure ()

lemma handleHtmlGraphIndex (h : StepRules w I U S Q) (iterator : Stream Node) :
    Triple I (Service.handleHtmlGraphIndex w iterator) Q I := by
  refine triple_bind h.serverRootUrl fun rootUrl => triple_ite ?_ ?_
  · refine triple_bind (h.appendGraphItems rootUrl iterator _) fun page => ?_
    rintro c ⟨hc, hresponse⟩
    exact h.triple_page (by simpa using hresponse) c hc
  · exact triple_bind (h.logRest iterator) fun _ => h.triple_page (by simp)

lemma writeGraphLines (h : StepRules w I U S Q) (response : Response)
    (iterator : Stream Node) :
    Triple (S response) (Service.writeGraphLines iterator) (fun _ => S response) I := by
  induction iterator with
  | nil => exact triple_pure fun _ hs => hs
  | cons event iterator ih =>
    match event with
    | .log m => exact triple_bind (h.sentLog response m) fun _ => ih
    | .object none => exact triple_pure fun _ hs => hs
    | .object (some node) =>
      unfold Service.writeGraphLines
      cases node.getUri with
      | none => exact triple_pure fun _ hs => hs
      | some uri => exact triple_bind (h.sentWrite response _) fun _ => ih

lemma handleTextGraphIndex (h : StepRules w I U S Q) (iterator : Stream Node) :
    Triple I (Service.handleTextGraphIndex w iterator) Q I :=
  triple_bind (h.send .text) fun response =>
    triple_bind (h.writeGraphLines response iterator) fun _ => triple_pure fun _ hs => h.sent hs

lemma handleGraphIndex (h : StepRules w I U S Q) :
    Triple I (Service.handleGraphIndex w) (Answers I Q) I := by
  refine triple_bind maintains_get fun c => triple_bind (maintains_ofExcept _) fun format => ?_
  refine triple_bind (h.call _) fun iterator => ?_
  cases iterator with
  | none => exact someMessage_triple h _ _
  | some iterator =>
    refine triple_bind (maintains_ofExcept _) fun text =>
      triple_ite (triple_some (h.handleTextGraphIndex iterator)) ?_
    exact triple_bind (maintains_ofExcept _) fun html =>
      triple_ite (triple_some (h.handleHtmlGraphIndex iterator)) (someMessage_triple h _ _)

/-! ### The description and queries -/

lemma countContexts (h : StepRules w I U S Q) (iterator : Stream Node) (count : ℕ) :
    Maintains I (Service.countContexts (σ := σ) iterator count) := by
  induction iterator generalizing count with
  | nil => exact maintains_pure count
  | cons event iterator ih =>
    cases event with
    | log m => exact triple_bind (h.log m) fun _ => ih count
    | object o => exact ih (count + 1)

lemma contextCount (h : StepRules w I U S Q) : Maintains I (Service.contextCount w) := by
  refine triple_bind (h.call _) fun iterator => ?_
  cases iterator with
  | none => exact maintains_pure _
  | some iterator => exact maintains_map (h.countContexts iterator 0)

lemma handleHtmlDescription (h : StepRules w I U S Q) :
    Triple I (Service.handleHtmlDescription w) Q I :=
  triple_bind maintains_get fun c => triple_bind h.contextCount fun count =>
    h.triple_page (descriptionPage_response w c.app count)

lemma handleDescriptionGet (h : StepRules w I U S Q) :
    Triple I (Service.handleDescriptionGet w) (Answers I Q) I := by
  refine triple_bind maintains_get fun c => triple_ofExcept_bind ?_ fun _ hc => hc
  rintro ⟨desc, mimeType⟩ -
  cases desc with
  | none => exact triple_some h.handleHtmlDescription
  | some desc =>
    refine triple_ite (triple_some h.handleHtmlDescription) ?_
    refine triple_bind (h.url.mono (fun _ hc => hc) fun _ _ hc => hc.1) fun url => ?_
    refine triple_ite (triple_bind maintains_get fun c' => triple_bind (h.call _) fun stream => ?_)
      (triple_pure fun _ hc => hc)
    cases stream with
    | none => exact triple_pure fun _ hc => hc
    | some stream => exact triple_some (h.formatGraphStream stream)

lemma formatResults (h : StepRules w I U S Q) (results : QueryResults T R) :
    Triple I (Service.formatResults w results) Q I := by
  match results with
  | .bindings results => exact h.formatBindingsQueryResult results
  | .graph (some stream) => exact h.formatGraphStream stream
  | .graph none => exact message_triple h _ _
  | .boolean results => exact h.formatBindingsQueryResult results
  | .syntaxResults => exact message_triple h _ _
  | .unknown => exact message_triple h _ _

lemma performQuery (h : StepRules w I U S Q) (queryString : CString) :
    Triple I (Service.performQuery w queryString) Q I := by
  refine triple_bind maintains_get fun c => triple_bind (h.call _) fun created =>
    triple_ite ?_ (message_triple h _ _)
  refine triple_bind (h.call _) fun results => ?_
  cases results with
  | none => exact message_triple h _ _
  | some results =>
    exact triple_bind (h.counters _ fun app => ⟨_, _, _, rfl⟩) fun _ => h.formatResults results

lemma handleQuery (h : StepRules w I U S Q) :
    Triple I (Service.handleQuery w) (Answers I Q) I := by
  refine triple_bind maintains_get fun c => ?_
  cases c.request.getArgument (CString.lit "query") with
  | none => exact h.handlePageQueryForm
  | some queryString => exact triple_some (h.performQuery queryString)

lemma handleSparql (h : StepRules w I U S Q) :
    Triple I (Service.handleSparql w) (Answers I Q) I := by
  refine triple_bind maintains_get fun c => ?_
  dsimp only
  cases c.request.getArgument (CString.lit "query") with
  | some queryString => exact triple_some (h.performQuery queryString)
  | none =>
    cases c.request.method with
    | none => exact triple_throw fun _ hc => hc
    | some method => exact triple_ite h.handleDescriptionGet (someMessage_triple h _ _)

/-! ### The table -/

lemma removeTrailingSlash (hredirect : ∀ {path response c}, I c → c.request.path = some path →
      trailingSlashResponse w path = .ok (some response) → Q response c) :
    Triple I (Service.removeTrailingSlash w) (Answers I Q) I := by
  refine triple_get_bind fun c hc => ?_
  rintro c' rfl
  cases hpath : c'.request.path with
  | none => exact hc
  | some path =>
    dsimp only
    cases hresponse : trailingSlashResponse w path with
    | error e => exact hc
    | ok response =>
      cases response with
      | none => exact hc
      | some response => exact hredirect hc hpath hresponse

/-- Every handler of the table answers with the property, or declines. -/
lemma handlers (h : StepRules w I U S Q)
    (hput : Serves I Q (route (some "PUT") (some "/data*") (Service.handleDataPut w)))
    (hpost : Serves I Q (route (some "POST") (some "/data*") (Service.handleDataPost w)))
    (hredirect : Serves I Q (route (some "GET") none (Service.removeTrailingSlash w))) :
    ∀ handler ∈ redstoreHandlers w, Serves I Q handler := by
  have hcounter : Triple I (requestCounter (σ := σ)) (Answers I Q) I :=
    triple_bind (h.counters _ fun app => ⟨_, _, _, rfl⟩) fun _ => triple_pure fun _ hc => hc
  have hlog : Triple I (requestLog (σ := σ)) (Answers I Q) I := triple_pure fun _ hc => hc
  have hreset : Triple I (resetErrorBuffer (σ := σ)) (Answers I Q) I := by
    intro c hc
    exact h.reset c hc
  have hinsert : Triple I (handleInsertPost w) (Answers I Q) I :=
    h.handleContentPost fun stream graph => h.loadStreamIntoGraph stream graph
  have hdelete : Triple I (handleDeletePost w) (Answers I Q) I :=
    h.handleContentPost fun stream graph => h.deleteStreamFromGraph stream graph
  have hnotFound : Triple I (handleNotFound w) (Answers I Q) I := someMessage_triple h _ _
  simp only [redstoreHandlers, List.forall_mem_cons, List.not_mem_nil, false_imp_iff,
    implies_true, and_true]
  exact ⟨.inr hcounter, .inr hlog, .inr hreset, .inr h.handleQuery, .inr h.handleSparql,
    .inr h.handleSparql, .inr h.handleQuery, .inr h.handleSparql, .inr h.handleSparql,
    .inr h.handleDataHead, .inr h.handleDataGet, hput, hpost,
    .inr h.handleDataDelete, .inr (h.handlePageUpdateForm _), .inr hinsert,
    .inr (h.handlePageUpdateForm _), .inr hdelete, .inr h.handleGraphIndex,
    .inr h.handlePageLoadForm, .inr h.handleLoadPost, .inr h.handlePageHome,
    .inr h.handleDescriptionGet, .inr h.handleImageFavicon, .inr h.handlePageRobotsTxt,
    hredirect, .inr hnotFound⟩

/-! ### The dispatch -/

lemma matchRoute (h : StepRules w I U S Q) (handler : Handler (App σ)) :
    Maintains I (onRequest (RedHttp.matchRoute handler)) := by
  intro c hc
  rcases matchRoute_cases handler c.request with ⟨b, hb⟩ | ⟨e, he⟩ | ⟨glob, hglob⟩
  · simp only [onRequest, hb]
    exact hc
  · simp only [onRequest, he]
    exact hc
  · have hset := h.glob (some glob) c hc
    simp only [onRequest, hglob, bind_apply] at hset ⊢
    cases hr : redhttpRequestSetPathGlob (some glob) c.request with
    | ok u r =>
      simp only [hr] at hset
      exact hset
    | error e r =>
      simp only [hr] at hset
      exact hset

lemma tryRoutes (h : StepRules w I U S Q) {handlers : List (Handler (App σ))}
    (hall : ∀ handler ∈ handlers, Serves I Q handler) :
    Triple I (RedHttp.tryRoutes handlers) (Answers I Q) I := by
  induction handlers with
  | nil => exact triple_pure fun _ hc => hc
  | cons handler handlers ih =>
    have hrest := ih fun handler hmem => hall handler (by simp [hmem])
    rcases hall handler (by simp) with hskip | hserves
    · intro c hc
      have hskipped : onRequest (RedHttp.matchRoute handler) c = .ok false c := by
        simp only [onRequest, hskip c hc]
      rw [RedHttp.tryRoutes, bind_of_ok hskipped]
      exact hrest c hc
    · refine triple_bind (h.matchRoute handler) fun matched => triple_ite ?_ hrest
      refine triple_bind hserves fun response => ?_
      cases response with
      | none => exact hrest
      | some response => exact triple_pure fun _ hc => hc

lemma answerFallback (h : StepRules w I U S Q) :
    Triple I (RedHttp.answerFallback w.heap (redstoreHandlers w)) (Answers I Q) I := by
  refine triple_bind maintains_get fun c => triple_bind maintains_get fun c' => ?_
  cases c.request.path with
  | none => exact triple_throw fun _ hc => hc
  | some path =>
    cases c'.request.method with
    | none => exact triple_throw fun _ hc => hc
    | some method =>
      refine triple_ofExcept (fun answer hanswer c hc => ?_) fun _ hc => hc
      cases answer with
      | none => exact hc
      | some response => exact h.fallback hc hanswer

/-- Every request is answered with the property, if the uploads are. -/
theorem dispatchRequest (h : StepRules w I U S Q)
    (hput : Serves I Q (route (some "PUT") (some "/data*") (Service.handleDataPut w)))
    (hpost : Serves I Q (route (some "POST") (some "/data*") (Service.handleDataPost w)))
    (hredirect : Serves I Q (route (some "GET") none (Service.removeTrailingSlash w))) :
    Triple I (Service.dispatchRequest w) (Answers I Q) I := by
  refine triple_bind maintains_get fun c => triple_bind maintains_get fun c' => ?_
  cases c.request.path with
  | none => exact triple_throw fun _ hc => hc
  | some path =>
    cases c'.request.method with
    | none => exact triple_throw fun _ hc => hc
    | some method =>
      refine triple_ite ?_ (triple_bind (h.tryRoutes (h.handlers hput hpost hredirect)) fun
        response => ?_)
      · refine triple_ofExcept (fun answer hanswer c hc => ?_) fun _ hc => hc
        cases answer with
        | none => exact hc
        | some response => exact h.asterisk hc hanswer
      · cases response with
        | some response => exact triple_pure fun _ hc => hc
        | none => exact h.answerFallback

end StepRules

/-! ### Uploads -/

namespace HandlerRules

lemma parseDataFromRequestBody (h : HandlerRules w I U S Q) (graphNode : Option Node)
    {streamProc : StreamProcessor T σ}
    (hproc : ∀ stream, Triple I (streamProc stream graphNode) Q I) :
    Triple I (Service.parseDataFromRequestBody w graphNode streamProc) Q I := by
  refine triple_bind maintains_get fun c => triple_bind (h.body _) fun data => ?_
  cases data with
  | error failure => exact message_triple h.toStepRules _ _
  | ok data =>
    dsimp only
    cases w.parserGuessName (c.request.getHeader (CString.lit "Content-Type")) data with
    | none => exact message_triple h.toStepRules _ _
    | some parserName => exact h.parseDataFromBuffer data parserName graphNode hproc

lemma postToNewGraph (h : HandlerRules w I U S Q) :
    Triple I (Service.postToNewGraph w) Q I := by
  refine triple_bind (h.findNewGraph 10) fun found => ?_
  rintro c ⟨hc, hfound⟩
  cases found with
  | error message => exact message_triple h.toStepRules _ _ c hc
  | ok graphNode =>
    obtain ⟨url, n, hurl, hnode⟩ := hfound graphNode rfl
    exact h.parseDataFromRequestBody (some graphNode)
      (fun stream => h.loadStreamIntoNewGraph hurl hnode stream) c hc

lemma handleDataPost (h : HandlerRules w I U S Q) :
    Triple I (Service.handleDataPost w) (Answers I Q) I := by
  refine triple_bind maintains_get fun c => triple_ite (someMessage_triple h.toStepRules _ _) ?_
  refine triple_ite (triple_some ?_) (triple_ite (triple_some ?_) (triple_some h.postToNewGraph))
  · exact h.parseDataFromRequestBody none fun stream => h.loadStreamIntoGraph stream none
  · exact h.withGraphNode fun node => h.parseDataFromRequestBody (some node) fun stream =>
      h.loadStreamIntoGraph stream (some node)

lemma handleDataPut (h : HandlerRules w I U S Q) :
    Triple I (Service.handleDataPut w) (Answers I Q) I :=
  h.withTarget (message_triple h.toStepRules _ _) fun node => h.parseDataFromRequestBody (some node)
    fun stream => h.clearAndLoadStreamIntoGraph stream (some node)

/-- Every request is answered with the property, if it is answered. -/
theorem dispatchRequest (h : HandlerRules w I U S Q)
    (hredirect : Serves I Q (route (some "GET") none (Service.removeTrailingSlash w))) :
    Triple I (Service.dispatchRequest w) (Answers I Q) I :=
  h.toStepRules.dispatchRequest (.inr h.handleDataPut) (.inr h.handleDataPost) hredirect

end HandlerRules

end RedStore.Service
