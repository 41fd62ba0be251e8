/-
Requests to the graph store, and what is relied on of Redland when they are answered.

A request stands for a command of the graph store protocol, and a response shows a reply.  As long
as nothing goes wrong, the connection of a handler stays quiet: nothing is written to it and
nothing is logged before the handler answers.
-/
import RedStore.GraphStore.Protocol
import RedStore.Service.ErrorPages
import RedStore.Service.GraphForms
import RedStore.Service.NegotiateFormat

namespace RedStore.Service
open CLib RedHttp Dataset

variable {T R σ α : Type}

/-! ### What is relied on -/

/-- A call that logs nothing and leaves some quads. -/
structure Leaves (quads : σ → Set (T × Option Node)) (d : Set (T × Option Node))
    (answer : Answer σ α) : Prop where
  silent : answer.logs = []
  left : quads answer.storage = d

/-- What is relied on of Redland: every call succeeds and logs nothing, what is enumerated is
what is there when the call is made, and the removals and the additions are exact.  `random`
stays below `RAND_MAX + 1`. -/
structure Faultless (w : World T R σ) (quads : σ → Set (T × Option Node)) : Prop where
  random : w.random < intRange
  uris : ResolvingUris w
  copy : ∀ u, w.newUriFromUri u = some u
  contains : ∀ g s, Leaves quads (quads s) (w.containsContext g s) ∧
    ((w.containsContext g s).value = true ↔ (content (quads s) (some g)).Nonempty)
  getContexts : ∀ s, Leaves quads (quads s) (w.storageGetContexts s) ∧
    ∃ gs, (w.storageGetContexts s).value = some (streamOf gs) ∧
      ∀ g, g ∈ gs ↔ (content (quads s) (some g)).Nonempty
  asStream : ∀ s, Leaves quads (quads s) (w.modelAsStream s) ∧
    ∃ ts, (w.modelAsStream s).value = some (streamOf ts) ∧ ∀ t, t ∈ ts ↔ t ∈ triples (quads s)
  contextAsStream : ∀ g s, Leaves quads (quads s) (w.contextAsStream g s) ∧
    ∃ ts, (w.contextAsStream g s).value = some (streamOf ts) ∧
      ∀ t, t ∈ ts ↔ t ∈ content (quads s) (some g)
  add : ∀ g stream s, streamLogs stream = [] →
    Leaves quads (Dataset.add (quads s) g (triplesOf stream)) (w.contextAddStatements g stream s) ∧
      (w.contextAddStatements g stream s).value = false
  clear : ∀ g s, Leaves quads (Dataset.clear (quads s) (some g)) (w.contextRemoveStatements g s) ∧
    (w.contextRemoveStatements g s).value = false
  remove : ∀ t s, Leaves quads (Dataset.remove (quads s) none {t}) (w.removeStatement t s) ∧
    (w.removeStatement t s).value = false
  newParser : ∀ name s, Leaves quads (quads s) (w.newParser name s) ∧
    (w.newParser name s).value = true
  parse : ∀ name data base s, Leaves quads (quads s) (w.parserParseCountedString name data base s)
  newSerializer : ∀ name s, Leaves quads (quads s) (w.newSerializer name s) ∧
    (w.newSerializer name s).value = true
  serialize : ∀ name stream s, Leaves quads (quads s) (w.serializeStream name stream s) ∧
    (w.serializeStream name stream s).value.1 = false

/-! ### Requests and answers -/

/-- A request to the graph store as it comes from a client that does not say what it accepts. -/
structure StoreRequest (r : Request) (m : DataMethod) (suffix : CString) : Prop where
  method : r.method = some m.name
  path : r.path = some (CString.lit "/data" ++ suffix)
  target : r.pathAndQuery ≠ none
  glob : r.pathGlob = .null
  url : r.url = none
  unanswered : r.socket.output = []
  noAccept : r.getHeader (CString.lit "Accept") = none
  arguments : StoredValues r.arguments

/-- What a request is for: the graph of an absolute URI, the default graph, both or, without
anything behind `/data`, neither. -/
inductive Aimed (r : Request) (suffix : CString) : Aim Node → Prop where
  | both (hgraph : hasGraph r = true) (hdefault : hasDefault r = true) : Aimed r suffix .both
  | neither (hgraph : hasGraph r = false) (hdefault : hasDefault r = false)
    (hsuffix : suffix.strlen = 0) : Aimed r suffix .neither
  | default (hgraph : hasGraph r = false) (hdefault : hasDefault r = true) :
    Aimed r suffix .default
  | graph {g : CString} (hgraph : r.getArgument (CString.lit "graph") = some g)
    (hdefault : hasDefault r = false) (habsolute : Absolute g) : Aimed r suffix (.graph (.uri g))

/-- A request brings some data along, and says correctly how much. -/
structure Carries (r : Request) (data rest : List UInt8) : Prop where
  length : ∃ header, r.getHeader (CString.lit "Content-Length") = some header ∧
    atoi header = data.length
  input : r.socket.input = data ++ rest

/-- What a request brings along.  The type of a document is one that there is a parser for,
which finds nothing wrong. -/
inductive Brings (w : World T R σ) (r : Request) : Upload T Node → Prop where
  | document {meaning : Option Node → Set (Set T)} {data rest : List UInt8} {name : CString}
    (hdata : Carries r data rest) (hne : data ≠ [])
    (hmemory : w.heap.malloc data.length = true)
    (htype : w.parserGuessName (r.getHeader (CString.lit "Content-Type")) data = some name)
    (hparsed : ∀ node base s,
      chooseBaseUri w (r.getArgument (CString.lit "base-uri")) node = .ok base →
        ∃ stream, (w.parserParseCountedString name data base s).value = some stream ∧
          streamLogs stream = [] ∧ triplesOf stream ∈ meaning node) :
    Brings w r (.document meaning)
  | empty {rest : List UInt8} (hdata : Carries r [] rest) : Brings w r .empty
  | tooLarge {data rest : List UInt8} (hdata : Carries r data rest) (hne : data ≠ [])
    (hmemory : w.heap.malloc data.length = false) : Brings w r .tooLarge

/-- The serializer that a request is served with. -/
def graphFormat (w : World T R σ) (r : Request) : Option Description × Option CString :=
  namedFormat w.serializerDescriptions
    ((r.getArgument (CString.lit "format")).getD defaultGraphFormat)

/-- What a request asks for, by its method. -/
inductive Asks (w : World T R σ) (r : Request) : DataMethod → Action T Node → Prop where
  | head : Asks w r .head .head
  | get : Asks w r .get (.get (graphFormat w r).1.isSome)
  | put {upload : Upload T Node} (h : Brings w r upload) : Asks w r .put (.put upload)
  | post {upload : Upload T Node} (h : Brings w r upload) : Asks w r .post (.post upload)
  | delete : Asks w r .delete .delete

/-- A request stands for a command of the protocol. -/
def StandsFor (w : World T R σ) (r : Request) (command : Command T Node) : Prop :=
  ∃ m suffix, StoreRequest r m suffix ∧ Aimed r suffix command.aim ∧ Asks w r m command.action

/-- The status of a reply. -/
def replyStatus : Reply T Node → Status
  | .done => .ok
  | .created _ => .created
  | .triples _ => .ok
  | .unformatted => .notAcceptable
  | .notFound => .notFound
  | .rejected => .badRequest
  | .unsupported => .notImplemented
  | .exhausted => .internalServerError

/-- What else a client sees of a reply: the URI of a new graph, and the triples, serialized
behind a head. -/
def ReplySeen (w : World T R σ) (response : Response) (written : List UInt8) :
    Reply T Node → Prop
  | .created g => written = [] ∧
      redhttpHeadersGet response.headers (CString.lit "Location") = g.getUri
  | .triples ts => ∃ desc ∈ w.serializerDescriptions, ∃ head stream s,
      triplesOf stream = ts ∧ streamLogs stream = [] ∧
        written = head ++ (w.serializeStream desc.name stream s).value.2
  | _ => written = []

/-- A response, with what its handler has written, shows a reply. -/
def Shows (w : World T R σ) (answer : Response × List UInt8) (reply : Reply T Node) : Prop :=
  answer.1.status = replyStatus reply ∧ ReplySeen w answer.1 answer.2 reply

/-- A request is answered, in one state of the service and leaving another. -/
def ServiceStep (w : World T R σ) (app : App σ) (r : Request) (app' : App σ)
    (answer : Response × List UInt8) : Prop :=
  ∃ c, dispatchRequest w ⟨r, app⟩ = .ok (some answer.1) c ∧ c.app = app' ∧
    c.request.socket.output = answer.2

/-! ### The connection of a handler -/

section Handlers

variable {w : World T R σ} {quads : σ → Set (T × Option Node)} {r : Request}
  {d d' : Set (T × Option Node)} {c : Conn (App σ)} {command : Command T Node}
  {action : Action T Node} {reply : Reply T Node}

/-- A connection with the headers and the arguments of a request, to which nothing has been
written and of which nothing has been logged. -/
structure Quiet (quads : σ → Set (T × Option Node)) (r : Request) (d : Set (T × Option Node))
    (c : Conn (App σ)) : Prop where
  headers : c.request.headers = r.headers
  arguments : c.request.arguments = r.arguments
  unwritten : c.request.socket.output = []
  buffer : c.app.errorBuffer = none
  stored : quads c.app.storage = d

namespace Quiet

lemma called (h : Quiet quads r d c) {answer : Answer σ α} (ha : Leaves quads d' answer) :
    Quiet quads r d' (called c answer) where
  headers := h.headers
  arguments := h.arguments
  unwritten := h.unwritten
  buffer := called_errorBuffer_eq_none_iff.mpr ⟨h.buffer, ha.silent⟩
  stored := by rw [called_storage, ha.left]

lemma looked (h : Quiet quads r d c) : Quiet quads r d (looked c) :=
  ⟨h.headers, h.arguments, h.unwritten, h.buffer, h.stored⟩

lemma urlConn (h : Quiet quads r d c) : Quiet quads r d (urlConn c) :=
  ⟨h.headers, h.arguments, h.unwritten, h.buffer, h.stored⟩

lemma genidConn (h : Quiet quads r d c) : Quiet quads r d (genidConn w c) :=
  ⟨h.headers, h.arguments, h.unwritten, h.buffer, h.stored⟩

lemma getHeader (h : Quiet quads r d c) (key : CString) :
    c.request.getHeader key = r.getHeader key := by
  rw [Request.getHeader, Request.getHeader, h.headers]

lemma getArgument (h : Quiet quads r d c) (key : CString) :
    c.request.getArgument key = r.getArgument key := by
  rw [Request.getArgument, Request.getArgument, h.arguments]

end Quiet

/-- A client that does not say what it accepts is given any page. -/
lemma canAnswer_of_noAccept (h : r.getHeader (CString.lit "Accept") = none) : CanAnswer r := by
  have haccept : acceptToNegotiate r = none := by
    rw [acceptToNegotiate, h, Option.filter_none]
  rw [CanAnswer, messageFormat, redstoreNegotiateString, haccept]
  cases r.getArgument (CString.lit "format") with
  | some format => exact ⟨format, rfl⟩
  | none => exact ⟨CString.lit "text/plain", rfl⟩

/-- An answer that shows a step from the dataset `d`. -/
def StepAnswered (w : World T R σ) (quads : σ → Set (T × Option Node)) (d : Set (T × Option Node))
    (command : Command T Node)
    (result : EStateM.Result Fault (Conn (App σ)) (Option Response)) : Prop :=
  ∃ response c reply, result = .ok (some response) c ∧
    Shows w (response, c.request.socket.output) reply ∧
      Step 10 d command (quads c.app.storage) reply

lemma Quiet.page (h : Quiet quads r d c) (hanswer : CanAnswer r) (code : Status)
    (message : List UInt8) : ∃ response,
      redstorePageNewWithMessage w code message c = .ok response (Service.looked c) ∧
        response.status = code := by
  have hreadable : BufferReadable w c.app := fun buffer hbuffer => by
    rw [h.buffer] at hbuffer
    cases hbuffer
  exact pageNewWithMessage_ok ((canAnswer_congr h.headers h.arguments).mpr hanswer)
    fun _ => hreadable

/-- A page shows a reply that has nothing but a status. -/
lemma Quiet.answered_page (h : Quiet quads r d' c) (hanswer : CanAnswer r) {code : Status}
    {message : List UInt8} (hstep : Step 10 d command d' reply) (hcode : replyStatus reply = code)
    (hseen : ∀ response, ReplySeen w response [] reply) :
    StepAnswered w quads d command ((some <$> redstorePageNewWithMessage w code message) c) := by
  obtain ⟨response, hpage, hstatus⟩ := h.page (w := w) hanswer code message
  refine ⟨response, Service.looked c, reply, map_some_eq_ok_iff.mpr hpage,
    ⟨hstatus.trans hcode.symm, ?_⟩, ?_⟩
  · rw [looked_request, h.unwritten]
    exact hseen response
  · rw [looked_storage, h.stored]
    exact hstep

/-! ### The target -/

/-- The target of a request for an aim. -/
def aimTarget : Aim Node → Target
  | .both => .both
  | .neither => .missing
  | .default => .default
  | .graph g => .graph g

lemma requestTarget_of_aimed (hw : Faultless w quads) {m : DataMethod} {suffix : CString}
    {aim : Aim Node} (h : StoreRequest r m suffix) (haim : Aimed r suffix aim) (app : App σ) :
    requestTarget w (dataConn ⟨r, app⟩ suffix).request = aimTarget aim := by
  have hgraph : hasGraph (dataConn ⟨r, app⟩ suffix).request = hasGraph r := rfl
  have hdefault : hasDefault (dataConn ⟨r, app⟩ suffix).request = hasDefault r := rfl
  rw [requestTarget, hgraph, hdefault]
  cases haim with
  | both hgraph hdefault =>
    rw [hgraph, hdefault]
    rfl
  | neither hgraph hdefault hsuffix =>
    have hpath : hasPath (dataConn ⟨r, app⟩ suffix).request = false := by
      show decide (newGlob suffix ≠ .null) = false
      rw [newGlob, if_pos hsuffix]
      rfl
    rw [hgraph, hdefault, hpath]
    rfl
  | default hgraph hdefault =>
    rw [hgraph, hdefault, Bool.false_and, Bool.not_true, Bool.and_false]
    rfl
  | @graph g hgraph hdefault habsolute =>
    obtain ⟨target, htarget⟩ := Option.ne_none_iff_exists'.mp h.target
    have hurl : (dataConn ⟨r, app⟩ suffix).request.currentUrl = some (targetUrl r target) := by
      show r.url.or (r.pathAndQuery.map _) = _
      rw [h.url, htarget]
      rfl
    have hne : (targetUrl r target).bytes ≠ [] := by
      simp [targetUrl, CString.lit, CString.ofBytes, bytesOf, ch]
    have hargument : (dataConn ⟨r, app⟩ suffix).request.getArgument (CString.lit "graph") =
        some g := hgraph
    have hnode : requestNode w (dataConn ⟨r, app⟩ suffix).request = some (.uri g) := by
      rw [requestNode, graphNodeFor, hurl, Option.bind_some, hw.uris.newUri _ hne, hargument]
      simp only [hw.uris.absolute _ _ habsolute, Option.bind_some, hw.uris.node]
    rw [hdefault, show hasGraph r = true from exists_of_get_eq_some hgraph, hnode]
    rfl

lemma Quiet.answered_both (h : Quiet quads r d c) (hanswer : CanAnswer r) :
    StepAnswered w quads d ⟨action, .both⟩ ((some <$> bothArguments w) c) :=
  h.answered_page hanswer (.both action) rfl fun _ => rfl

/-- The handlers other than that for POST, by what they do with the default graph and with a
graph that is named. -/
lemma Quiet.answered_withTarget (h : Quiet quads r d c) (hanswer : CanAnswer r) {aim : Aim Node}
    (htarget : requestTarget w c.request = aimTarget aim)
    (hpost : ∀ upload, action ≠ .post upload) {onDefault : ServiceM σ Response}
    {onGraph : Node → ServiceM σ Response}
    (hdefault : StepAnswered w quads d ⟨action, .default⟩ ((some <$> onDefault) c))
    (hgraph : ∀ g, aim = .graph g →
      StepAnswered w quads d ⟨action, .graph g⟩ ((some <$> onGraph g) (Service.urlConn c))) :
    StepAnswered w quads d ⟨action, aim⟩ (withTarget w onDefault onGraph c) := by
  rw [withTarget_apply, htarget]
  cases aim with
  | both => exact h.answered_both hanswer
  | neither => exact h.answered_page hanswer (.neither hpost) rfl fun _ => rfl
  | default => exact hdefault
  | graph g => exact hgraph g rfl

/-- A graph that has to be there. -/
lemma Quiet.answered_ifContained (hw : Faultless w quads) (h : Quiet quads r d c)
    (hanswer : CanAnswer r) (haction : NeedsGraph action) {g : Node} {onGraph : ServiceM σ Response}
    (hgraph : ∀ c₁, (content d (some g)).Nonempty → Quiet quads r d c₁ →
      StepAnswered w quads d ⟨action, .graph g⟩ ((some <$> onGraph) c₁)) :
    StepAnswered w quads d ⟨action, .graph g⟩ ((some <$> ifContained w g onGraph) c) := by
  obtain ⟨hleaves, hcontains⟩ := hw.contains g c.app.storage
  rw [h.stored] at hleaves hcontains
  have hcalled : Quiet quads r d (Service.called c (w.containsContext g c.app.storage)) :=
    h.called hleaves
  by_cases hvalue : (w.containsContext g c.app.storage).value = true
  · have hrun : ifContained w g onGraph c =
        onGraph (Service.called c (w.containsContext g c.app.storage)) := by
      rw [ifContained_apply, if_pos hvalue]
    rw [map_some_congr hrun]
    exact hgraph _ (hcontains.mp hvalue) hcalled
  · have hrun : ifContained w g onGraph c =
        redstorePageNewWithMessage w .notFound (bytesOf "Graph not found.")
          (Service.called c (w.containsContext g c.app.storage)) := by
      rw [ifContained_apply, if_neg hvalue]
    have hempty : content d (some g) = ∅ :=
      Set.not_nonempty_iff_eq_empty.mp fun hne => hvalue (hcontains.mpr hne)
    rw [map_some_congr hrun]
    exact hcalled.answered_page hanswer (.missing haction hempty) rfl fun _ => rfl

end Handlers

end RedStore.Service
