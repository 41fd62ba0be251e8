/-
What an answer depends on when nothing is changed.

The handlers of pages, queries and reads of the graph store call only those functions of
Redland that read.  `QueryRules` says of a relation between two connections that it fixes what
the handler of a query looks at, and that the steps of that handler agree up to it; `PageRules`
says so of all handlers that read.  The lemmas of this file carry the agreement from the steps
to the handlers.
-/
import RedStore.CLib.Relational
import RedStore.Service.Main

namespace RedStore.Service
open CLib RedHttp

variable {T R σ : Type}

/-- The calls of Redland that only read. -/
inductive ReadingCall (w : World T R σ) : ∀ {α : Type}, (σ → Answer σ α) → Prop where
  | contexts : ReadingCall w w.storageGetContexts
  | contains (graph : Node) : ReadingCall w (w.containsContext graph)
  | model : ReadingCall w w.modelAsStream
  | context (graph : Node) : ReadingCall w (w.contextAsStream graph)
  | serializer (name : CString) : ReadingCall w (w.newSerializer name)
  | serialize (name : CString) (stream : Stream T) : ReadingCall w (w.serializeStream name stream)
  | query (lang queryString : CString) : ReadingCall w (w.newQuery lang queryString)
  | execute (lang queryString : CString) : ReadingCall w (w.queryExecute lang queryString)
  | formatter (results : R) (name : CString) : ReadingCall w (w.newFormatter results name)
  | write (results : R) (name : CString) : ReadingCall w (w.formatterWrite results name)
  | description (triples : List Statement) : ReadingCall w (w.temporaryModelAsStream triples)

/-- A relation that fixes what the handler of a query depends on. -/
structure QueryRules (w : World T R σ) (rel : Conn (App σ) → Conn (App σ) → Prop) : Prop where
  arguments : ∀ {c d}, rel c d → d.request.arguments = c.request.arguments
  accept : ∀ {c d}, rel c d → d.request.getHeader (CString.lit "Accept") =
    c.request.getHeader (CString.lit "Accept")
  call : ∀ {α : Type} {f : σ → Answer σ α}, ReadingCall w f → Agree rel (call f) (call f)
  log : ∀ m, Agree rel (redlandLogHandler m) (redlandLogHandler m)
  inspect : Agree rel inspectErrorBuffer inspectErrorBuffer
  count : Agree rel (modifyApp fun app => { app with queryCount := (app.queryCount + 1) % longRange })
    (modifyApp fun app => { app with queryCount := (app.queryCount + 1) % longRange })
  send : ∀ response, Agree rel (onRequest (redhttpResponseSend w.now response))
    (onRequest (redhttpResponseSend w.now response))
  fwrite : ∀ bytes, Agree rel (onRequest (fwrite bytes)) (onRequest (fwrite bytes))

/-- A relation that fixes the request. -/
structure PageRules (w : World T R σ) (rel : Conn (App σ) → Conn (App σ) → Prop) : Prop
    extends QueryRules w rel where
  request : ∀ {c d}, rel c d → d.request = c.request
  url : Agree rel (onRequest redhttpRequestGetUrl) (onRequest redhttpRequestGetUrl)
  host : Agree rel (onRequest redhttpRequestGetHost) (onRequest redhttpRequestGetHost)

variable {w : World T R σ} {rel : Conn (App σ) → Conn (App σ) → Prop}

namespace QueryRules

lemma getArgument (h : QueryRules w rel) {c d : Conn (App σ)} (hrel : rel c d) (key : CString) :
    d.request.getArgument key = c.request.getArgument key := by
  rw [Request.getArgument, Request.getArgument, h.arguments hrel]

lemma negotiateString (h : QueryRules w rel) {c d : Conn (App σ)} (hrel : rel c d)
    (supported defaultFormat : CString) :
    redstoreNegotiateString d.request supported defaultFormat =
      redstoreNegotiateString c.request supported defaultFormat := by
  simp only [redstoreNegotiateString, acceptToNegotiate, h.accept hrel, h.getArgument hrel]

lemma negotiateFormat (h : QueryRules w rel) {c d : Conn (App σ)} (hrel : rel c d)
    (descs : List Description) (defaultFormat : CString) :
    redstoreNegotiateFormat d.request descs defaultFormat =
      redstoreNegotiateFormat c.request descs defaultFormat := by
  simp only [redstoreNegotiateFormat, acceptToNegotiate, h.accept hrel, h.getArgument hrel]

/-! ### Message pages -/

lemma htmlMessagePage (h : QueryRules w rel) (code : Status) (message : List UInt8) :
    Agree rel (Service.htmlMessagePage w code message)
      (Service.htmlMessagePage w code message) := by
  refine agree_bind h.inspect fun buffer => ?_
  cases buffer with
  | none => exact agree_pure _
  | some buffer =>
    dsimp only
    cases w.stringbufferAsString buffer with
    | none => exact agree_throw _
    | some str => exact agree_pure _

lemma message (h : QueryRules w rel) (code : Status) (message : List UInt8) :
    Agree rel (redstorePageNewWithMessage w code message)
      (redstorePageNewWithMessage w code message) := by
  refine agree_get_bind fun c d hrel => ?_
  rw [h.negotiateString hrel]
  refine agree_bind (agree_ofExcept _) fun format => agree_bind (agree_ofExcept _) fun html => ?_
  refine agree_ite (h.htmlMessagePage code message) ?_
  exact agree_bind h.inspect fun buffer => agree_pure _

/-! ### Formats -/

lemma sendFormatted (h : QueryRules w rel) (mimeType : Option CString)
    {write : σ → Answer σ (Bool × List UInt8)} (hwrite : ReadingCall w write) :
    Agree rel (Service.sendFormatted w mimeType write)
      (Service.sendFormatted w mimeType write) :=
  agree_bind (h.send _) fun response => agree_bind (h.call hwrite) fun _ =>
    agree_bind (h.fwrite _) fun _ => agree_pure response

lemma formatGraphStream (h : QueryRules w rel) (stream : Stream T) :
    Agree rel (Service.formatGraphStream w stream) (Service.formatGraphStream w stream) := by
  refine agree_get_bind fun c d hrel => ?_
  rw [h.negotiateFormat hrel]
  refine agree_bind (agree_ofExcept _) fun format => ?_
  obtain ⟨desc, mimeType⟩ := format
  cases desc with
  | none => exact h.message _ _
  | some desc =>
    exact agree_bind (h.call (.serializer _)) fun created =>
      agree_ite (h.sendFormatted mimeType (.serialize _ stream)) (h.message _ _)

lemma formatBindingsQueryResult (h : QueryRules w rel) (results : R) :
    Agree rel (Service.formatBindingsQueryResult w results)
      (Service.formatBindingsQueryResult w results) := by
  refine agree_get_bind fun c d hrel => ?_
  rw [h.negotiateFormat hrel]
  refine agree_bind (agree_ofExcept _) fun format => ?_
  obtain ⟨desc, mimeType⟩ := format
  cases desc with
  | none => exact h.message _ _
  | some desc =>
    exact agree_bind (h.call (.formatter results _)) fun created =>
      agree_ite (h.sendFormatted mimeType (.write results _)) (h.message _ _)

/-! ### Queries -/

lemma formatResults (h : QueryRules w rel) (results : QueryResults T R) :
    Agree rel (Service.formatResults w results) (Service.formatResults w results) := by
  cases results with
  | bindings results => exact h.formatBindingsQueryResult results
  | graph stream =>
    cases stream with
    | none => exact h.message _ _
    | some stream => exact h.formatGraphStream stream
  | boolean results => exact h.formatBindingsQueryResult results
  | syntaxResults => exact h.message _ _
  | unknown => exact h.message _ _

lemma performQuery (h : QueryRules w rel) (queryString : CString) :
    Agree rel (Service.performQuery w queryString) (Service.performQuery w queryString) := by
  refine agree_get_bind fun c d hrel => ?_
  rw [h.getArgument hrel]
  refine agree_bind (h.call (.query _ _)) fun created => agree_ite ?_ (h.message _ _)
  refine agree_bind (h.call (.execute _ _)) fun results => ?_
  cases results with
  | none => exact h.message _ _
  | some results => exact agree_bind h.count fun _ => h.formatResults results

lemma handleQuery (h : QueryRules w rel) :
    Agree rel (Service.handleQuery w) (Service.handleQuery w) := by
  refine agree_get_bind fun c d hrel => ?_
  rw [h.getArgument hrel]
  cases c.request.getArgument (CString.lit "query") with
  | none => exact agree_pure _
  | some queryString => exact agree_map (h.performQuery queryString)

end QueryRules

namespace PageRules

/-! ### Reads of the graph store -/

lemma getGraphNode (h : PageRules w rel) :
    Agree rel (Service.getGraphNode w) (Service.getGraphNode w) := by
  refine agree_bind h.url fun url => agree_get_bind fun c d hrel => ?_
  rw [h.getArgument hrel]
  exact agree_pure _

lemma withGraphNode (h : PageRules w rel) {onGraph : Node → ServiceM σ Response}
    (hgraph : ∀ node, Agree rel (onGraph node) (onGraph node)) :
    Agree rel (Service.withGraphNode w onGraph) (Service.withGraphNode w onGraph) := by
  refine agree_bind h.getGraphNode fun node => ?_
  cases node with
  | none => exact h.message _ _
  | some node => exact hgraph node

lemma withTarget (h : PageRules w rel) {onDefault : ServiceM σ Response}
    {onGraph : Node → ServiceM σ Response} (hdefault : Agree rel onDefault onDefault)
    (hgraph : ∀ node, Agree rel (onGraph node) (onGraph node)) :
    Agree rel (Service.withTarget w onDefault onGraph)
      (Service.withTarget w onDefault onGraph) := by
  refine agree_get_bind fun c d hrel => ?_
  rw [h.request hrel]
  refine agree_ite (agree_map (h.message _ _)) (agree_ite (agree_map (h.message _ _)) ?_)
  exact agree_ite (agree_map hdefault) (agree_map (h.withGraphNode hgraph))

lemma ifContained (h : PageRules w rel) (graphNode : Node) {onGraph : ServiceM σ Response}
    (hgraph : Agree rel onGraph onGraph) :
    Agree rel (Service.ifContained w graphNode onGraph)
      (Service.ifContained w graphNode onGraph) :=
  agree_bind (h.call (.contains graphNode)) fun _ => agree_ite hgraph (h.message _ _)

lemma handleDataHead (h : PageRules w rel) :
    Agree rel (Service.handleDataHead w) (Service.handleDataHead w) :=
  h.withTarget (agree_pure _) fun node => h.ifContained node (agree_pure _)

lemma formatStreamOf (h : PageRules w rel) (message : String)
    {asStream : σ → Answer σ (Option (Stream T))} (hstream : ReadingCall w asStream) :
    Agree rel (Service.formatStreamOf w message asStream)
      (Service.formatStreamOf w message asStream) := by
  refine agree_bind (h.call hstream) fun stream => ?_
  cases stream with
  | none => exact h.message _ _
  | some stream => exact h.formatGraphStream stream

lemma handleDataGet (h : PageRules w rel) :
    Agree rel (Service.handleDataGet w) (Service.handleDataGet w) :=
  h.withTarget (h.formatStreamOf _ .model) fun node =>
    h.ifContained node (h.formatStreamOf _ (.context node))

lemma handlePageUpdateForm (h : PageRules w rel) (title : String) :
    Agree rel (Service.handlePageUpdateForm w title) (Service.handlePageUpdateForm w title) := by
  refine agree_get_bind fun c d hrel => ?_
  rw [h.request hrel]
  exact agree_pure _

/-! ### The list of graphs -/

lemma appendGraphItems (h : PageRules w rel) (rootUrl : CString) (iterator : Stream Node)
    (page : Page) : Agree rel (Service.appendGraphItems w rootUrl iterator page)
      (Service.appendGraphItems w rootUrl iterator page) := by
  induction iterator generalizing page with
  | nil => exact agree_pure page
  | cons event iterator ih =>
    cases event with
    | log m => exact agree_bind (h.log m) fun _ => ih page
    | object o =>
      cases o with
      | none => exact agree_pure page
      | some node =>
        unfold Service.appendGraphItems
        cases node.getUri with
        | none => exact agree_pure page
        | some uri => exact agree_bind (agree_ofExcept _) fun page => ih page

lemma logRest (h : PageRules w rel) (iterator : Stream Node) :
    Agree rel (Service.logRest iterator) (Service.logRest iterator) := by
  induction iterator with
  | nil => exact agree_pure ()
  | cons event iterator ih =>
    cases event with
    | log m => exact agree_bind (h.log m) fun _ => ih
    | object o => exact agree_pure ()

lemma handleHtmlGraphIndex (h : PageRules w rel) (iterator : Stream Node) :
    Agree rel (Service.handleHtmlGraphIndex w iterator)
      (Service.handleHtmlGraphIndex w iterator) := by
  have hroot : Agree rel (serverRootUrl (σ := σ)) serverRootUrl :=
    agree_bind h.host fun host => agree_pure _
  refine agree_bind hroot fun rootUrl => agree_ite ?_ ?_
  · exact agree_bind (h.appendGraphItems rootUrl iterator _) fun page => agree_pure _
  · exact agree_bind (h.logRest iterator) fun _ => agree_pure _

lemma writeGraphLines (h : PageRules w rel) (iterator : Stream Node) :
    Agree rel (Service.writeGraphLines iterator) (Service.writeGraphLines iterator) := by
  induction iterator with
  | nil => exact agree_pure ()
  | cons event iterator ih =>
    cases event with
    | log m => exact agree_bind (h.log m) fun _ => ih
    | object o =>
      cases o with
      | none => exact agree_pure ()
      | some node =>
        unfold Service.writeGraphLines
        cases node.getUri with
        | none => exact agree_pure ()
        | some uri => exact agree_bind (h.fwrite _) fun _ => ih

lemma handleGraphIndex (h : PageRules w rel) :
    Agree rel (Service.handleGraphIndex w) (Service.handleGraphIndex w) := by
  refine agree_get_bind fun c d hrel => ?_
  rw [h.negotiateString hrel]
  refine agree_bind (agree_ofExcept _) fun format => agree_bind (h.call .contexts) fun iterator => ?_
  cases iterator with
  | none => exact agree_map (h.message _ _)
  | some iterator =>
    refine agree_bind (agree_ofExcept _) fun text => agree_ite (agree_map ?_) ?_
    · exact agree_bind (h.send _) fun response =>
        agree_bind (h.writeGraphLines iterator) fun _ => agree_pure response
    · exact agree_bind (agree_ofExcept _) fun html =>
        agree_ite (agree_map (h.handleHtmlGraphIndex iterator)) (agree_map (h.message _ _))

/-! ### The description -/

lemma countContexts (h : PageRules w rel) (iterator : Stream Node) (count : ℕ) :
    Agree rel (Service.countContexts (σ := σ) iterator count)
      (Service.countContexts iterator count) := by
  induction iterator generalizing count with
  | nil => exact agree_pure count
  | cons event iterator ih =>
    cases event with
    | log m => exact agree_bind (h.log m) fun _ => ih count
    | object o => exact ih (count + 1)

lemma contextCount (h : PageRules w rel) :
    Agree rel (Service.contextCount w) (Service.contextCount w) := by
  refine agree_bind (h.call .contexts) fun iterator => ?_
  cases iterator with
  | none => exact agree_pure _
  | some iterator => exact agree_map (h.countContexts iterator 0)

/-- The page shows the counters, too. -/
lemma handleHtmlDescription (h : PageRules w rel)
    (hpage : ∀ {c d}, rel c d → descriptionPage w d.app = descriptionPage w c.app) :
    Agree rel (Service.handleHtmlDescription w) (Service.handleHtmlDescription w) := by
  refine agree_get_bind fun c d hrel => agree_bind h.contextCount fun contexts => ?_
  rw [hpage hrel]
  exact agree_pure _

lemma handleDescriptionGet (h : PageRules w rel)
    (hpage : ∀ {c d}, rel c d → descriptionPage w d.app = descriptionPage w c.app)
    (hstorage : ∀ {c d}, rel c d → d.app.storage = c.app.storage) :
    Agree rel (Service.handleDescriptionGet w) (Service.handleDescriptionGet w) := by
  refine agree_get_bind fun c d hrel => ?_
  rw [h.negotiateFormat hrel]
  refine agree_bind (agree_ofExcept _) fun format => ?_
  obtain ⟨desc, mimeType⟩ := format
  cases desc with
  | none => exact agree_map (h.handleHtmlDescription hpage)
  | some desc =>
    refine agree_ite (agree_map (h.handleHtmlDescription hpage)) (agree_bind h.url fun url => ?_)
    refine agree_ite (agree_get_bind fun c d hrel => ?_) (agree_pure none)
    rw [hstorage hrel]
    refine agree_bind (h.call (.description _)) fun stream => ?_
    cases stream with
    | none => exact agree_pure none
    | some stream => exact agree_map (h.formatGraphStream stream)

lemma handleSparql (h : PageRules w rel)
    (hdescription : ∀ {c d}, rel c d → c.request.method = some (CString.lit "GET") →
      c.request.getArgument (CString.lit "query") = none →
      Agree rel (Service.handleDescriptionGet w) (Service.handleDescriptionGet w)) :
    Agree rel (Service.handleSparql w) (Service.handleSparql w) := by
  refine agree_get_bind fun c d hrel => ?_
  rw [h.request hrel]
  dsimp only
  cases hquery : c.request.getArgument (CString.lit "query") with
  | some queryString => exact agree_map (h.performQuery queryString)
  | none =>
    cases hmethod : c.request.method with
    | none => exact agree_throw _
    | some method =>
      dsimp only
      split
      · next hget => exact hdescription hrel (hget ▸ hmethod) hquery
      · exact agree_map (h.message _ _)

end PageRules

end RedStore.Service
