/-
A query is answered the same with GET and with POST.

With GET the query is in the target, with POST it is the body of a form.  Both come to the
arguments of the request, and the answer depends on these and on the Accept header; the handler
of a query sees no difference.  So neither does the client, from the bytes of the request to those
of the answer, if it sends nothing behind its query.
-/
import RedStore.RedHttp.FormEncoding
import RedStore.Service.MemoryWorld
import RedStore.Service.ReadingRules
import RedStore.Service.Routing
import RedStore.Service.Serving

namespace RedStore.Service
open CLib RedHttp

variable {T R σ : Type} {w : World T R σ}

/-! ### What the handler of a query sees -/

/-- Two connections that look the same to the handler of a query. -/
structure SameQuery (c d : Conn (App σ)) : Prop where
  arguments : d.request.arguments = c.request.arguments
  accept : d.request.getHeader (CString.lit "Accept") = c.request.getHeader (CString.lit "Accept")
  hasHeaders : d.request.hasHeaders = c.request.hasHeaders
  signature : d.request.serverSignature = c.request.serverSignature
  output : d.request.socket.output = c.request.socket.output
  /-- Both have been read to their end. -/
  input : c.request.socket.input = [] ∧ d.request.socket.input = []
  app : d.app = c.app

/-- Writing to both keeps them the same. -/
lemma SameQuery.write {c d : Conn (App σ)} (h : SameQuery c d) (bytes : List UInt8) :
    SameQuery { c with request := c.request.write bytes }
      { d with request := d.request.write bytes } :=
  ⟨h.arguments, h.accept, h.hasHeaders, h.signature, by simp [Request.write, h.output], h.input,
    h.app⟩

lemma SameQuery.withApp {c d : Conn (App σ)} (h : SameQuery c d) (app : App σ) :
    SameQuery { c with app } { d with app } :=
  ⟨h.arguments, h.accept, h.hasHeaders, h.signature, h.output, h.input, rfl⟩

lemma sameQueryRules (w : World T R σ) : QueryRules w SameQuery where
  arguments h := h.arguments
  accept h := h.accept
  call {α f} hf c d h := by
    rw [call_apply, call_apply, h.app]
    refine ⟨rfl, ?_⟩
    rw [called, called, h.app]
    exact h.withApp _
  log m := agree_modify fun c d h => by
    rw [h.app]
    exact h.withApp _
  inspect c d h := by
    rw [inspect_apply, inspect_apply, looked, looked, h.app]
    exact ⟨rfl, h.withApp _⟩
  count := agree_modify fun c d h => by
    rw [h.app]
    exact h.withApp _
  send response c d h := by
    have hadd : addSendHeaders w.now d.request response =
        addSendHeaders w.now c.request response := by
      simp only [addSendHeaders, h.signature]
    have hhead : sentHead w.now d.request response = sentHead w.now c.request response := by
      simp only [sentHead, h.hasHeaders, hadd]
    have hsent : sentResponse w.now d.request response = sentResponse w.now c.request response := by
      simp only [sentResponse, hadd]
    by_cases hbad : response.contentBuffer.isSome = true ∧ response.contentLength ≤ 0
    · simp only [onRequest, redhttpResponseSend_eq, hhead, if_pos hbad]
      exact ⟨rfl, h.write _⟩
    · simp only [onRequest, redhttpResponseSend_eq, hhead, hsent, if_neg hbad]
      exact ⟨rfl, h.write _⟩
  fwrite bytes := agree_modify fun c d h => h.write bytes

/-! ### Where queries are asked -/

/-- The page of queries and the two of the SPARQL protocol. -/
inductive QueryPage where
  | query | sparql | sparqlSlash

/-- The path of a page. -/
def QueryPage.path : QueryPage → CString
  | .query => CString.lit "/query"
  | .sparql => CString.lit "/sparql"
  | .sparqlSlash => CString.lit "/sparql/"

/-- The methods that a query is asked with. -/
inductive QueryMethod where
  | get | post

def QueryMethod.name : QueryMethod → CString
  | .get => CString.lit "GET"
  | .post => CString.lit "POST"

/-- The handler of a page. -/
def QueryPage.handler (w : World T R σ) : QueryPage → ServiceM σ (Option Response)
  | .query => handleQuery w
  | .sparql | .sparqlSlash => handleSparql w

/-- A request to the page is a query: `/query` alone shows a form when there is none. -/
def QueryPage.Asks (page : QueryPage) (r : Request) : Prop :=
  page = .query ∨ (r.getArgument (CString.lit "query")).isSome = true

lemma handleQuery_answers : AlwaysAnswers (handleQuery w) := by
  intro c c'
  rw [handleQuery, bind_of_ok (get_apply _)]
  cases c.request.getArgument (CString.lit "query") with
  | none => intro h; cases h
  | some queryString => exact alwaysAnswers_some _ c c'

/-- A query is the same on all pages. -/
lemma QueryPage.handler_eq {page : QueryPage} {c : Conn (App σ)} (hasks : page.Asks c.request) :
    page.handler w c = handleQuery w c := by
  have hsparql : (c.request.getArgument (CString.lit "query")).isSome = true →
      handleSparql w c = handleQuery w c := by
    intro h
    obtain ⟨queryString, hquery⟩ := Option.isSome_iff_exists.mp h
    rw [handleSparql, handleQuery, bind_of_ok (get_apply _), bind_of_ok (get_apply _)]
    simp only [hquery]
  cases page with
  | query => rfl
  | sparql => exact hsparql (hasks.resolve_left (by simp))
  | sparqlSlash => exact hsparql (hasks.resolve_left (by simp))

/-- The route of a page for a method. -/
def QueryPage.route (w : World T R σ) (page : QueryPage) (m : QueryMethod) : Handler (App σ) :=
  ⟨some m.name, some page.path, page.handler w⟩

lemma QueryPage.mem_route (page : QueryPage) (m : QueryMethod) :
    ∃ before after, requestHandlers w = before ++ page.route w m :: after ∧
      before.all (routeMismatch m.name page.path) = true := by
  cases m with
  | get =>
    cases page with
    | query => exact ⟨[], (requestHandlers w).drop 1, rfl, rfl⟩
    | sparql => exact ⟨(requestHandlers w).take 1, (requestHandlers w).drop 2, rfl, rfl⟩
    | sparqlSlash => exact ⟨(requestHandlers w).take 2, (requestHandlers w).drop 3, rfl, rfl⟩
  | post =>
    cases page with
    | query => exact ⟨(requestHandlers w).take 3, (requestHandlers w).drop 4, rfl, rfl⟩
    | sparql => exact ⟨(requestHandlers w).take 4, (requestHandlers w).drop 5, rfl, rfl⟩
    | sparqlSlash => exact ⟨(requestHandlers w).take 5, (requestHandlers w).drop 6, rfl, rfl⟩

/-- Whichever its page and its method, a query comes to `handle_query`. -/
lemma dispatchRequest_query {c : Conn (App σ)} {page : QueryPage} {m : QueryMethod}
    (hmethod : c.request.method = some m.name) (hpath : c.request.path = some page.path)
    (hasks : page.Asks c.request) :
    dispatchRequest w c = handleQuery w (beforeHandlers c) := by
  have hhandler : (page.route w m).func (beforeHandlers c) = handleQuery w (beforeHandlers c) :=
    page.handler_eq hasks
  have hliteral : matchPath page.path.bytes page.path.bytes = .ok (some none) ∧
      page.path ≠ CString.lit "*" := by
    cases page <;> decide
  obtain ⟨before, after, hsplit, hbefore⟩ := page.mem_route (w := w) m
  rw [← hhandler]
  refine dispatchRequest_route_of_answers _ before after hmethod hpath hsplit hbefore rfl rfl
    hliteral.1 hliteral.2 fun c' => ?_
  rw [hhandler]
  exact handleQuery_answers _ c'

/-! ### One query, written twice -/

/-- A query written with GET and as a form, each with nothing behind it. -/
structure WrittenTwice (heap : Heap) (page : QueryPage) (query : CString) (g p : RequestText) :
    Prop where
  get : g.upperMethod = CString.lit "GET"
  post : p.upperMethod = CString.lit "POST"
  target : g.target = page.path ++ CString.lit "?" ++ query
  formTarget : p.target = page.path
  /-- The query has an argument of this name, unless the page does not need one. -/
  asks : page = .query ∨
    (redhttpHeadersGet ((argumentSegments query.bytes).map segmentHeader)
      (CString.lit "query")).isSome = true
  accept : redhttpHeadersGet p.head.headers (CString.lit "Accept") =
    redhttpHeadersGet g.head.headers (CString.lit "Accept")
  form : ∃ contentType, redhttpHeadersGet p.head.headers (CString.lit "Content-Type") =
    some contentType ∧
      (bytesOf "application/x-www-form-urlencoded").isPrefixOf contentType.bytes = true
  length : ∃ contentLength, redhttpHeadersGet p.head.headers (CString.lit "Content-Length") =
    some contentLength ∧ atoi contentLength = query.strlen
  getEnd : g.further = []
  body : p.further = query.bytes
  room : heap.malloc (query.strlen + 1) = true
  lines : g.LinesReadable heap
  formLines : p.LinesReadable heap

section WrittenTwice

variable {heap : Heap} {page : QueryPage} {query : CString} {g p : RequestText} {r : Request}

/-- The page and the query are found in the target again. -/
lemma target_query (page : QueryPage) (query : CString) :
    pathOf (page.path ++ CString.lit "?" ++ query) = page.path ∧
      queryBytes (page.path ++ CString.lit "?" ++ query) = query.bytes := by
  have hmark : ch '?' ∉ page.path.bytes := by cases page <;> decide
  have hbytes : (page.path ++ CString.lit "?" ++ query).bytes =
      page.path.bytes ++ ch '?' :: query.bytes := by
    rw [CString.bytes_append, CString.bytes_append, List.append_assoc]
    rfl
  have hpath : unescaped page.path.bytes = page.path := by cases page <;> decide
  have hfind : strchr (page.path.bytes ++ ch '?' :: query.bytes) (ch '?') =
      some page.path.bytes.length := by
    rw [strchr_append_of_not_mem hmark, strchr_cons_self]
    simp
  constructor
  · have htake := takeWhile_of_strchr_none (strchr_eq_none_iff.mpr hmark)
    rw [pathOf, hbytes, takeWhile_bne_append hmark, List.takeWhile_cons_of_neg (by decide),
      List.append_nil, hpath]
  · rw [queryBytes, queryStringOf, hbytes, hfind, Option.map_some, Option.elim_some,
      List.drop_length_add_append, List.drop_succ_cons, List.drop_zero, CString.ofBytes_bytes]

/-- A page without a query has its path for a target. -/
lemma target_page (page : QueryPage) :
    pathOf page.path = page.path ∧ queryBytes page.path = [] := by
  cases page <;> decide

/-- A request that asks for a query. -/
structure AsksQuery (page : QueryPage) (m : QueryMethod) (query : CString) (r : Request) :
    Prop where
  method : r.method = some m.name
  path : r.path = some page.path
  arguments : r.arguments = sentArguments query

lemma WrittenTwice.read_get (h : WrittenTwice heap page query g p) (hr : FreshOn g r) :
    redhttpRequestRead heap r = .ok 0 (afterHeaders g r) ∧
      AsksQuery page .get query (afterHeaders g r) := by
  have hpost : ¬ (bytesOf "POST").isPrefixOf (g.method.bytes.map toupper) = true := by
    have hbytes := congrArg CString.bytes h.get
    rw [show g.method.bytes.map toupper = _ from hbytes]
    decide
  obtain ⟨hpath, hquery⟩ := target_query page query
  refine ⟨?_, ?_, ?_, ?_⟩
  · rw [read_of_line hr h.lines.1, readRest_of_readable h.lines, if_neg hpost]
  · show some (storedMethod g.method) = _
    rw [storedMethod_method, h.get]
    rfl
  · show some (pathOf g.target) = _
    rw [h.target, hpath]
  · show r.arguments ++ _ = _
    rw [hr.arguments, List.nil_append, h.target, hquery, sentArguments]

lemma WrittenTwice.keys (h : WrittenTwice heap page query g p) : KeysNonEmpty query.bytes := by
  have hkeys := g.target_keys
  rwa [h.target, (target_query page query).2] at hkeys

/-- The form is read with the query for its arguments. -/
lemma WrittenTwice.read_post (h : WrittenTwice heap page query g p) (hr : FreshOn p r) :
    redhttpRequestRead heap r = .ok 0 (afterForm p query r) ∧
      AsksQuery page .post query (afterForm p query r) := by
  have hsends : SendsForm heap p query :=
    ⟨h.post, h.form, h.length, h.body ▸ List.prefix_rfl, h.room, h.keys⟩
  obtain ⟨hpath, hquery⟩ := target_page page
  refine ⟨hsends.read h.formLines hr, ?_, ?_, ?_⟩
  · show some (storedMethod p.method) = _
    rw [storedMethod_method, h.post]
    rfl
  · show some (pathOf p.target) = _
    rw [h.formTarget, hpath]
  · show (r.arguments ++ _) ++ sentArguments query = _
    rw [hr.arguments, h.formTarget, hquery]
    rfl

/-- To the handler of a query, both are the same. -/
lemma WrittenTwice.sameQuery (h : WrittenTwice heap page query g p) {r r' : Request}
    (hr : FreshOn g r) (hr' : FreshOn p r') (hsignature : r'.serverSignature = r.serverSignature)
    (houtput : r'.socket.output = r.socket.output) (app : App σ) :
    SameQuery ⟨afterHeaders g r, app⟩ ⟨afterForm p query r', app⟩ where
  arguments := (h.read_post hr').2.arguments.trans (h.read_get hr).2.arguments.symm
  accept := by
    have hget := congrArg RequestHead.headers (head_afterHeaders hr)
    have hpost := congrArg RequestHead.headers (head_afterHeaders hr')
    show redhttpHeadersGet (afterHeaders p r').headers _ =
      redhttpHeadersGet (afterHeaders g r).headers _
    rw [show (afterHeaders p r').headers = _ from hpost,
      show (afterHeaders g r).headers = _ from hget, h.accept]
  hasHeaders := by
    show (afterLine p r').hasHeaders = (afterLine g r).hasHeaders
    rw [hasHeaders_afterLine, hasHeaders_afterLine]
  signature := hsignature
  output := houtput
  input := by
    refine ⟨h.getEnd, ?_⟩
    show p.further.drop query.strlen = []
    rw [h.body]
    exact List.drop_length
  app := rfl

end WrittenTwice

/-! ### One answer -/

/-- A query that has been read is answered by `handle_query`. -/
lemma dispatchRequest_asksQuery {page : QueryPage} {m : QueryMethod} {query : CString}
    {r : Request} {app : App σ} (h : AsksQuery page m query r)
    (hasks : page = .query ∨
      (redhttpHeadersGet (sentArguments query) (CString.lit "query")).isSome = true) :
    dispatchRequest w ⟨r, app⟩ = handleQuery w (beforeHandlers ⟨r, app⟩) :=
  dispatchRequest_query h.method h.path (by rwa [QueryPage.Asks, Request.getArgument, h.arguments])

/-- A request that has been read is dispatched, and what it is answered is sent. -/
lemma handleRequest_of_read {r r' : Request} {app : App σ}
    (h : redhttpRequestRead w.heap r = .ok 0 r') :
    handleRequest w ⟨r, app⟩ = (dispatchRequest w >>= sendAnswer w.now) ⟨r', app⟩ := by
  rw [handleRequest, redhttpServerHandleRequest_eq]
  simp only [bind_apply, onRequest, h]
  rfl

/-- In whatever portions it comes, a query is answered with GET as it is as a form, byte for byte,
and leaves the same behind. -/
theorem serve_writtenTwice {app : App σ} {a : Arrival} {page : QueryPage} {query : CString}
    {g p : RequestText} (h : WrittenTwice w.heap page query g p)
    {portions formPortions : List (Portion UInt8)} (hportions : portionBytes portions = g.bytes)
    (hform : portionBytes formPortions = p.bytes) :
    serveOn w app a portions = serveOn w app a formPortions := by
  have hrules : QueryRules (w.at a.now) SameQuery := sameQueryRules _
  have hfresh : FreshOn g { a with input := portionBytes portions }.request :=
    ⟨hportions, rfl, rfl, rfl, rfl⟩
  have hfreshForm : FreshOn p { a with input := portionBytes formPortions }.request :=
    ⟨hform, rfl, rfl, rfl, rfl⟩
  obtain ⟨hread, hasks⟩ := h.read_get hfresh
  obtain ⟨hreadForm, hasksForm⟩ := h.read_post hfreshForm
  have hserve : EndAlike SameQuery
      (handleRequest (w.at a.now) ⟨{ a with input := portionBytes portions }.request, app⟩)
      (handleRequest (w.at a.now)
        ⟨{ a with input := portionBytes formPortions }.request, app⟩) := by
    rw [handleRequest_of_read (w := w.at a.now) hread,
      handleRequest_of_read (w := w.at a.now) hreadForm]
    refine EndAlike.bind (R := SameQuery) ?_ (fun _ _ h => h) fun answer c d hcd => ?_
    · rw [dispatchRequest_asksQuery hasks h.asks, dispatchRequest_asksQuery hasksForm h.asks]
      exact hrules.handleQuery _ _ ((h.sameQuery hfresh hfreshForm rfl rfl app).withApp _)
    · cases answer with
      | none => exact ⟨rfl, hcd⟩
      | some response => exact hrules.send response c d hcd
  rw [serveOn, serveOn]
  cases hget : handleRequest (w.at a.now)
      ⟨{ a with input := portionBytes portions }.request, app⟩ with
  | ok response c =>
    obtain ⟨d, hpost, hcd⟩ := hserve.ok hget
    -- nothing is left unread on either side
    have hc := delivered_of_nothingWaits (nothingWaits_of_read portions hcd.input.1)
    have hd := delivered_of_nothingWaits (nothingWaits_of_read formPortions hcd.input.2)
    simp only [hpost, hcd.app, hc, hd, hcd.output]
  | error e c =>
    rw [hget] at hserve
    cases hpost : handleRequest (w.at a.now)
        ⟨{ a with input := portionBytes formPortions }.request, app⟩ with
    | ok response d => simp [hpost, EndAlike] at hserve
    | error e' d => rfl

/-! ### In memory -/

/-- A query in a target. -/
def askGet : RequestText where
  method := CString.lit "get"
  target := CString.lit "/sparql?query=x"
  version := formRequest.version
  crlf := true
  headers := []
  lastCrlf := true
  further := []
  method_ne := by decide
  method_alpha := forall_mem_of_all (by decide)
  method_post := by decide
  target_start := ⟨ch '/', bytesOf "sparql?query=x", by decide, by decide⟩
  target_end := ⟨bytesOf "/sparql?query=", ch 'x', by decide, by decide⟩
  target_text := forall_mem_of_all (by decide)
  target_keys := by decide
  version_word := formRequest.version_word
  version_new := formRequest.version_new

/-- The same query in a form. -/
def askPost : RequestText :=
  { formRequest with
    target := CString.lit "/sparql"
    further := bytesOf "query=x"
    target_start := ⟨ch '/', bytesOf "sparql", by decide, by decide⟩
    target_end := ⟨bytesOf "/sparq", ch 'l', by decide, by decide⟩
    target_text := forall_mem_of_all (by decide)
    target_keys := by decide }

lemma ask_writtenTwice :
    WrittenTwice memoryWorld.heap .sparql (CString.lit "query=x") askGet askPost where
  get := by decide
  post := by decide
  target := by decide
  formTarget := by decide
  asks := Or.inr (by decide)
  accept := by decide
  form := ⟨CString.lit "application/x-www-form-urlencoded", by decide, by decide⟩
  length := ⟨CString.lit "7", by decide, by decide⟩
  getEnd := rfl
  body := by decide
  room := rfl
  lines := ⟨⟨rfl, room_of_lt (by decide)⟩, fun h hmem => by cases hmem⟩
  formLines := ⟨⟨rfl, room_of_lt (by decide)⟩, formLines_readable rfl⟩

/-- The query in one portion. -/
def askPortions : List (Portion UInt8) := [⟨ch 'g', askGet.bytes.tail⟩]

/-- The form in two portions, its head and its body. -/
def askFormPortions : List (Portion UInt8) :=
  [⟨ch 'P', (askPost.bytes.take (askPost.bytes.length - 7)).tail⟩, ⟨ch 'q', bytesOf "uery=x"⟩]

theorem serve_writtenTwice_ask :
    serveOn memoryWorld emptyApp { input := [] } askPortions =
      serveOn memoryWorld emptyApp { input := [] } askFormPortions :=
  serve_writtenTwice ask_writtenTwice (by decide) (by decide)

end RedStore.Service
