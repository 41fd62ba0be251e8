/-
Whether the header block of a response is read back as it was meant.

`redhttp_headers_print` writes values raw, so the question is what can get into one.  Lengths,
dates, types and methods have no line ends in them, and neither have the lines of a request; but
a path is decoded, and `remove_trailing_slash` puts a decoded path into a Location header.  All
other headers come back as they are.
-/
import RedStore.RedHttp.PlainResponses
import RedStore.Service.BodyReaders
import RedStore.Service.Framing
import RedStore.Service.GraphNames
import RedStore.Service.HandlerTriples
import RedStore.Service.HeadRequests
import RedStore.Service.MethodSemantics
import RedStore.Uri.Recompose

namespace RedStore.Service
open CLib RedHttp

variable {T R σ : Type}

/-! ### Headers that come back -/

/-- What is written is a status line, and from the lines behind it the headers of the response
are read, up to an empty line and to what is the body then. -/
def HeadersIntact (output : List UInt8) (sent : Response) : Prop :=
  ∃ rest body,
    output = statusLine sent.status.code (bytesOf sent.status.message) ++ crlf ++ rest ∧
    ∀ heap : Heap, heap.Ample → ParsesTo heap rest sent.headers body

/-- Surroundings that put no line ends into headers: media types and a build time that can be
printed, and URIs as they should be. -/
structure PlainSurroundings (w : World T R σ) : Prop where
  uris : IdealUris w
  types : ∀ type, OfferedType w type → PlainValue type
  buildTime : PlainValue w.buildTime

/-- A GET that no handler in front of `remove_trailing_slash` answers, if its path ends in a
slash. -/
structure SlashRequest (r : Request) (asked : CString) : Prop where
  method : r.method = some (CString.lit "GET")
  path : r.path = some asked
  not_root : asked ≠ CString.lit "/"
  not_data : ∀ suffix, asked ≠ CString.lit "/data" ++ suffix

/-- A path without its last character. -/
def withoutSlash (path : CString) : CString := CString.ofBytes path.bytes.dropLast

/-- If the request is redirected, then to something that can be the value of a header. -/
def RedirectPlain (w : World T R σ) (r : Request) : Prop :=
  ∀ path response, SlashRequest r path →
    trailingSlashResponse w path = .ok (some response) → PlainValue (withoutSlash path)

/-- A request with the signature of the program, as it waits on its socket. -/
def waitingRequest (addr port : CString) (input : List UInt8) : Request :=
  redhttpRequestNew (some serverSignature) addr port input

/-! ### What is built -/

section Built

variable {w : World T R σ} {response : Response}

lemma plainValue_builtTypes : ∀ type ∈ builtTypes, PlainValue type := by decide

lemma lineByte_genidLoop {c : UInt8} (fuel i index quotient : ℕ)
    (h : c ∈ genidLoop fuel i index quotient) : LineByte c :=
  forall_mem_of_all (s := ch '-' :: idChars) (by decide) c (mem_genidLoop h)

/-- The path of a new graph, as a reference. -/
lemma parse_newPath (n : ℕ) :
    (Rfc3986.parse (CString.lit "/data/" ++ genidText n).bytes).scheme = none ∧
      (Rfc3986.parse (CString.lit "/data/" ++ genidText n).bytes).authority = none ∧
      (Rfc3986.parse (CString.lit "/data/" ++ genidText n).bytes).path.head? = some (ch '/') := by
  obtain ⟨rest, hrest⟩ : ∃ rest,
      (CString.lit "/data/" ++ genidText n).bytes = ch '/' :: ch 'd' :: rest := ⟨_, rfl⟩
  have hauthority : (Rfc3986.parse (ch '/' :: ch 'd' :: rest)).authority = none :=
    Rfc3986.authority_parse_of_slash_iff.mpr fun rest' h =>
      absurd (List.cons.inj h).1 (by decide)
  rw [hrest, Rfc3986.path_parse_of_slash hauthority]
  exact ⟨Rfc3986.scheme_parse_of_slash _, hauthority, rfl⟩

/-- A graph that is made for an upload has a URI that can be printed. -/
lemma plainValue_newGraph (hw : PlainSurroundings w) {url : Option CString}
    (hurl : ∀ u ∈ url, HttpUrl u) {n : ℕ} {node : Node}
    (hnode : graphNodeFor w url (some (CString.lit "/data/" ++ genidText n)) = some node) :
    ∃ uri, node.getUri = some uri ∧ PlainValue uri := by
  cases url with
  | none => simp [graphNodeFor] at hnode
  | some u =>
    obtain ⟨htext, rest, hrest⟩ := hurl u rfl
    have hne : u.bytes ≠ [] := by
      rw [← hrest]
      simp [bytesOf]
    simp only [graphNodeFor, Option.bind_some, hw.uris.newUri u hne, hw.uris.relative,
      hw.uris.node, Option.some.injEq] at hnode
    refine ⟨_, by rw [← hnode]; rfl, ?_⟩
    -- the URI begins with the scheme of the URL
    have hscheme : (Rfc3986.parse u.bytes).scheme = some (bytesOf "http") := by
      have hsplit : u.bytes = bytesOf "http" ++ ch ':' :: (bytesOf "//" ++ rest) := hrest.symm
      rw [hsplit]
      exact Rfc3986.scheme_parse_of_colon (by decide) _
    obtain ⟨hrscheme, hrauthority, hrpath⟩ := parse_newPath n
    obtain ⟨more, hmore⟩ : ∃ more, Rfc3986.resolve u.bytes
        (CString.lit "/data/" ++ genidText n).bytes = ch 'h' :: more := by
      rw [Rfc3986.resolve, Rfc3986.transform_of_path hrscheme hrauthority hrpath,
        Rfc3986.recompose, hscheme]
      exact ⟨_, rfl⟩
    have hline : ∀ c ∈ Rfc3986.resolve u.bytes (CString.lit "/data/" ++ genidText n).bytes,
        LineByte c := by
      refine Rfc3986.forall_mem_resolve (forall_mem_of_all (by decide)) htext fun c hc => ?_
      rcases List.mem_append.mp hc with hc | hc
      · exact forall_mem_of_all (by decide) c hc
      · exact lineByte_genidLoop _ _ _ _ ((CString.bytes_ofBytes_sublist _).subset hc)
    rw [hmore] at hline ⊢
    exact plainValue_ofBytes (by decide) (by decide) hline

/-- What is built, the redirect apart, can be printed. -/
lemma plainHeaders_built (hw : PlainSurroundings w)
    (h : Built w (fun url => ∀ u ∈ url, HttpUrl u) response) : PlainHeaders response := by
  have hkey : PlainKey HeaderName.contentType.1 := by decide
  have htyped : ∀ type ∈ builtTypes, PlainHeader ⟨HeaderName.contentType.1, some type⟩ :=
    fun type htype => ⟨hkey, type, rfl, plainValue_builtTypes type htype⟩
  have hheaders := h.headers
  rw [PlainHeaders]
  revert hheaders
  generalize response.headers = headers
  intro hheaders
  cases hheaders with
  | none => simp
  | typed htype =>
    rw [List.forall_mem_singleton]
    exact htyped _ htype
  | dated htype =>
    rw [List.forall_mem_cons, List.forall_mem_singleton]
    exact ⟨htyped _ htype, plainHeader_of_value (by decide) hw.buildTime⟩
  | located htype hurl hnode =>
    obtain ⟨uri, huri, hplain⟩ := plainValue_newGraph hw hurl hnode
    rw [List.forall_mem_cons, List.forall_mem_singleton, huri]
    exact ⟨htyped _ htype, plainHeader_of_value (by decide) hplain⟩

/-- What handlers send themselves can be printed. -/
lemma plainHeaders_selfSent (hw : PlainSurroundings w) (h : SelfSent w response) :
    PlainHeaders response := by
  have hnew : ∀ status, PlainHeaders (redhttpResponseNew status) := fun _ => plainHeaders_nil rfl
  cases h with
  | @formatted mimeType hmime =>
    cases mimeType with
    | none => exact hnew .ok
    | some type =>
      exact (hnew .ok).add HeaderName.contentType (by decide) (hw.types type (hmime type rfl))
  | text => exact (hnew .ok).add HeaderName.contentType (by decide) (by decide)

/-- A redirect is to the path without its slash. -/
lemma trailingSlashResponse_of_ok {path : CString}
    (h : trailingSlashResponse w path = .ok (some response)) :
    response.headersSent = false ∧ ∃ page : Response, PlainHeaders page ∧
      response.headers =
        page.headers ++ [⟨HeaderName.location.1, storedValue (some (withoutSlash path))⟩] := by
  rw [trailingSlashResponse] at h
  split at h
  · cases h
  · split_ifs at h
    · simp only [Except.ok.injEq, redhttpResponseNewRedirect] at h
      split_ifs at h
      obtain ⟨page, hpage, rfl⟩ := Option.map_eq_some_iff.mp h
      refine ⟨?_, page, plainHeaders_errorPage hpage, rfl⟩
      exact (bodyIs_errorPage hpage).unsent
    · simp at h
    · simp at h

/-- A header has a value that can be printed, or it cannot be printed. -/
lemma plainValue_of_plainHeader {key v : CString} (h : PlainHeader ⟨key, storedValue (some v)⟩) :
    PlainValue v := by
  obtain ⟨-, v', hv', hplain⟩ := h
  have hstored : storedValue (some v) = some v' := hv'
  rw [storedValue, Option.filter_eq_some_iff, Option.some.injEq] at hstored
  exact hstored.1 ▸ hplain

end Built

/-! ### While a request is handled -/

/-- A request that has not been answered, in comparison to what has been read. -/
structure Unanswered (r r' : Request) : Prop where
  lines : OnLines r'
  signature : r'.serverSignature = some serverSignature
  output : r'.socket.output = []
  version : r'.version = r.version
  method : r'.method = r.method
  path : r'.path = r.path

/-- A response that has been sent to a request, with headers that can be printed. -/
structure Delivered (sent : Response) (r : Request) : Prop where
  headersSent : sent.headersSent = true
  plain : PlainHeaders sent
  output : ∃ body, r.socket.output = headText sent ++ body

/-- A response for a request that can be sent, or has been sent, with headers that can be
printed. -/
inductive Answered (r : Request) (response : Response) (r' : Request) : Prop where
  | unsent (h : Unanswered r r') (hunsent : response.headersSent = false)
    (hplain : PlainHeaders response)
  | sent (h : Delivered response r')

section Handled

variable {w : World T R σ} {r r' : Request} {response sent : Response}

lemma serverSignature_plain : PlainValue serverSignature := by decide

/-- An unsent response is sent with its head in front. -/
lemma Unanswered.send (h : Unanswered r r') (hr : r.hasHeaders = true)
    (hunsent : response.headersSent = false) {now : Option Tm} {r'' : Request}
    (hsend : redhttpResponseSend now response r' = .ok sent r'') :
    sent = sentResponse now r' response ∧ ∃ body, r''.socket.output = headText sent ++ body := by
  have hheaders : r'.hasHeaders = true := (hasHeaders_of_version h.version).trans hr
  rw [redhttpResponseSend_eq] at hsend
  split_ifs at hsend
  obtain ⟨rfl, rfl⟩ := EStateM.Result.ok.inj hsend
  refine ⟨rfl, sentContent response, ?_⟩
  show r'.socket.output ++ _ = _
  rw [h.output, List.nil_append, sentHead_of_unsent hunsent hheaders]

lemma Unanswered.plainHeaders_sent (h : Unanswered r r') (hplain : PlainHeaders response)
    (now : Option Tm) : PlainHeaders (sentResponse now r' response) := by
  refine hplain.sent ?_ now
  rw [h.signature]
  rintro _ ⟨⟩
  exact serverSignature_plain

/-- An answer is sent with its head in front, and with headers that can be printed. -/
lemma Answered.send (h : Answered r response r') (hr : r.hasHeaders = true) {now : Option Tm}
    {r'' : Request} (hsend : redhttpResponseSend now response r' = .ok sent r'') :
    PlainHeaders sent ∧ ∃ body, r''.socket.output = headText sent ++ body := by
  cases h with
  | unsent h hunsent hplain =>
    obtain ⟨rfl, houtput⟩ := h.send hr hunsent hsend
    exact ⟨h.plainHeaders_sent hplain now, houtput⟩
  | sent h =>
    obtain ⟨body, houtput⟩ := h.output
    rw [redhttpResponseSend_eq] at hsend
    split_ifs at hsend
    obtain ⟨rfl, rfl⟩ := EStateM.Result.ok.inj hsend
    rw [sentResponse, if_pos h.headersSent]
    refine ⟨h.plain, body ++ sentContent response, ?_⟩
    show r'.socket.output ++ _ = _
    rw [houtput, sentHead, if_neg (by simp [h.headersSent]), List.nil_append, List.append_assoc]

/-- The reading of a body leaves everything but the input and the calls. -/
lemma readDataBody_unanswered (heap : Heap) (length : Option CString) :
    Maintains (Unanswered r) (readDataBody heap length) := by
  intro r' h
  cases length with
  | none => exact h
  | some length =>
    rw [readDataBody_eq rfl]
    by_cases hzero : sizeOfInt (atoi length) = 0
    · rw [if_pos hzero]
      exact h
    · rw [if_neg hzero]
      by_cases hmalloc : heap.malloc (sizeOfInt (atoi length)) = true
      · rw [if_pos hmalloc]
        exact { h with lines := { h.lines with } }
      · rw [if_neg hmalloc]
        exact { h with lines := { h.lines with } }

lemma setPathGlob_unanswered (glob : Option CString) :
    Maintains (Unanswered r) (redhttpRequestSetPathGlob glob) := by
  have hkeeps : Keeps (fun r : Request => { r with pathGlob := .null })
      (redhttpRequestSetPathGlob glob) := keeps_setPathGlob (fun _ _ => rfl) glob
  refine hkeeps.maintains (p := Unanswered r) fun r' => ?_
  constructor
  · exact fun h => { h with lines := { h.lines with } }
  · exact fun h => { h with lines := { h.lines with } }

/-- A response that a handler sends itself is delivered. -/
lemma Unanswered.deliver (h : Unanswered r r') (hr : r.hasHeaders = true)
    (hw : PlainSurroundings w) (hsent : SelfSent w response) :
    ∃ sent r'', redhttpResponseSend w.now response r' = .ok sent r'' ∧ Delivered sent r'' := by
  have hnew : response.contentBuffer = none ∧ response.headersSent = false := by
    cases hsent with
    | @formatted mimeType _ => cases mimeType <;> exact ⟨rfl, rfl⟩
    | text => exact ⟨rfl, rfl⟩
  have hsend : redhttpResponseSend w.now response r' =
      .ok (sentResponse w.now r' response) (r'.write (sentHead w.now r' response)) :=
    redhttpResponseSend_of_none hnew.1
  obtain ⟨-, houtput⟩ := h.send hr hnew.2 hsend
  exact ⟨_, _, hsend, sentResponse_headersSent,
    h.plainHeaders_sent (plainHeaders_selfSent hw hsent) w.now, houtput⟩

lemma handlers_singleLine :
    ∀ it ∈ redstoreHandlers w, ∀ method ∈ it.method, SingleLine method := by
  have hall : ∀ route ∈ routeTable, ∀ method ∈ route.1, SingleLine method := by decide
  exact fun it hit => hall _ (mem_routeTable hit)

/-- The steps of the handlers put no line ends into headers. -/
lemma headerRules (hw : PlainSurroundings w) (hr : r.hasHeaders = true) :
    HandlerRules w (fun c => Unanswered r c.request) (fun url => ∀ u ∈ url, HttpUrl u)
      (fun response c => Delivered response c.request)
      (fun response c => Answered r response c.request) where
  call f c hc := by
    rw [call_apply]
    exact hc
  log m c hc := hc
  inspect c hc := hc
  reset c hc := hc
  counters f _ := maintains_modify fun c hc => hc
  url := by
    intro c hc
    simp only [onRequest, redhttpRequestGetUrl_apply]
    exact ⟨{ hc with lines := hc.lines.withUrl }, hc.lines.currentUrl⟩
  host := by
    intro c hc
    simp only [onRequest, redhttpRequestGetHost_apply]
    exact { hc with lines := hc.lines.withHost }
  glob glob := triple_request (setPathGlob_unanswered glob)
  body length := triple_request (readDataBody_unanswered w.heap length)
  built hc hbuilt := .unsent hc hbuilt.unsent (plainHeaders_built hw hbuilt)
  asterisk hc h := by
    obtain ⟨body, hmade⟩ := asteriskResponse_made h
    exact .unsent hc hmade.bodyIs.unsent (asteriskResponse_plain handlers_singleLine h)
  fallback hc h := by
    obtain ⟨body, hmade⟩ := fallbackResponse_made h
    exact .unsent hc hmade.bodyIs.unsent (fallbackResponse_plain handlers_singleLine h)
  send := by
    intro response hsent c hc
    obtain ⟨sent, r'', hsend, hdelivered⟩ := hc.deliver hr hw hsent
    simp only [onRequest, hsend]
    exact hdelivered
  sentCall response f c hc := by
    rw [call_apply]
    exact hc
  sentLog response m c hc := hc
  sentWrite response bytes := by
    intro c hc
    obtain ⟨body, hbody⟩ := hc.output
    refine ⟨hc.headersSent, hc.plain, body ++ bytes, ?_⟩
    show c.request.socket.output ++ bytes = _
    rw [hbody, List.append_assoc]
  sent hc := .sent hc

end Handled

/-! ### Which requests are redirected -/

section Redirect

variable {w : World T R σ} {r : Request} {c c' : Conn (App σ)} {response : Response}

/-- A path of the table is redirected to something that can be printed, or not at all. -/
lemma SlashRequest.mismatch {path : CString} (h : SlashRequest r path)
    (hslash : path.bytes.getLast? = some (ch '/')) (hbad : ¬ PlainValue (withoutSlash path)) :
    ∀ it ∈ pathHandlers w, routeMismatch (CString.lit "GET") path it = true := by
  have hpaths : ∀ p ∈ tablePaths, p = CString.lit "/data*" ∨
      (p = CString.lit "/" ∨ p.bytes.getLast? ≠ some (ch '/') ∨ PlainValue (withoutSlash p)) ∧
        ∃ last ∈ p.bytes.getLast?, last ≠ ch '*' := by decide
  have hsome : ∀ it ∈ pathHandlers w, it.method.isSome = true ∧ it.path.isSome = true := by
    have hall : ∀ route ∈ (routeTable.drop 3).take 22,
        route.1.isSome = true ∧ route.2.isSome = true := by decide
    intro it hit
    exact hall (it.method, it.path) (List.mem_map_of_mem (f := fun it => (it.method, it.path)) hit)
  intro it hit
  obtain ⟨⟨method, hmethod⟩, pattern, hpattern⟩ :=
    (hsome it hit).imp Option.isSome_iff_exists.mp Option.isSome_iff_exists.mp
  simp only [routeMismatch, hmethod, hpattern, Bool.or_eq_true, decide_eq_true_eq]
  right
  rcases hpaths pattern (mem_tablePaths (mem_redstoreHandlers_of_path hit) hpattern) with
    rfl | ⟨hother, last, hlast, hstar⟩
  · exact matchPath_not_data h.not_data
  · refine matchPath_of_literal hlast hstar fun heq => ?_
    obtain rfl : pattern = path := CString.ext heq
    rcases hother with hroot | hno | hplain
    · exact h.not_root hroot
    · exact hno hslash
    · exact hbad hplain

/-- A redirect to something that cannot be printed is what the request gets. -/
lemma SlashRequest.dispatch {path : CString} (h : SlashRequest c.request path)
    (hresponse : trailingSlashResponse w path = .ok (some response))
    (hbad : ¬ PlainValue (withoutSlash path)) :
    dispatchRequest w c = .ok (some response) (beforeHandlers c) := by
  have hslash : path.bytes.getLast? = some (ch '/') := by
    rw [trailingSlashResponse] at hresponse
    split at hresponse
    · cases hresponse
    · next last hlast =>
      split_ifs at hresponse with hlast'
      · rw [hlast, hlast']
      · simp at hresponse
      · simp at hresponse
  have hstar : path ≠ CString.lit "*" := by
    rintro rfl
    exact absurd hslash (by decide)
  have hskip : ∀ it ∈ pathHandlers w,
      matchRoute it (beforeHandlers c).request = .ok false (beforeHandlers c).request :=
    fun it hit => matchRoute_of_mismatch h.method h.path (h.mismatch hslash hbad it hit)
  have hmatch : matchRoute (route (some "GET") none (removeTrailingSlash w))
      (beforeHandlers c).request = .ok true (beforeHandlers c).request :=
    matchRoute_of_anyPath h.method rfl rfl
  have hredirect : removeTrailingSlash w (beforeHandlers c) =
      .ok (some response) (beforeHandlers c) := by
    have hpath : (beforeHandlers c).request.path = some path := h.path
    rw [removeTrailingSlash, bind_of_ok (get_apply _), hpath]
    simp only [hresponse, ofExcept_ok]
  have hanswers : ∀ c', removeTrailingSlash w (beforeHandlers c) ≠ .ok none c' := by
    rw [hredirect]
    simp
  have hroutes : tryRoutes (redstoreHandlers w) c = removeTrailingSlash w (beforeHandlers c) := by
    rw [tryRoutes_redstoreHandlers, requestHandlers_split, tryRoutes_append hskip]
    exact tryRoutes_of_answer hmatch hanswers
  rw [← hredirect]
  exact dispatchRequest_of_tryRoutes h.method h.path hstar hroutes hanswers

/-- Whatever a request is answered can be printed, if what it is redirected to can. -/
lemma dispatchRequest_answered (hw : PlainSurroundings w) (hr : r.hasHeaders = true)
    (hredirect : RedirectPlain w r) (h : Unanswered r c.request)
    (hglob : c.request.pathGlob = .null)
    (hrun : dispatchRequest w c = .ok (some response) c') : Answered r response c'.request := by
  have hrules := headerRules (σ := σ) hw hr
  -- the responses of a handler that is known to be the one for the request
  have hhandler : ∀ {handler : ServiceM σ (Option Response)} (c₁ : Conn (App σ)),
      Triple (fun c => Unanswered r c.request) handler
        (Answers (fun c => Unanswered r c.request) fun response c =>
          Answered r response c.request) (fun c => Unanswered r c.request) →
      Unanswered r c₁.request → dispatchRequest w c = handler c₁ →
      Answered r response c'.request := by
    intro handler c₁ htriple hc₁ heq
    exact htriple.of_ok hc₁ (heq ▸ hrun)
  by_cases hget : c.request.method = some (CString.lit "GET")
  · by_cases hdata : ∃ suffix, c.request.path = some (CString.lit "/data" ++ suffix)
    · obtain ⟨suffix, hpath⟩ := hdata
      exact hhandler (dataConn c suffix) hrules.handleDataGet
        { h with lines := { h.lines with } } (dispatchRequest_data (m := .get) hget hpath hglob)
    · by_cases hroot : c.request.path = some (CString.lit "/")
      · refine hhandler (beforeHandlers c) hrules.handlePageHome h ?_
        exact dispatchRequest_route (route (some "GET") (some "/") (handlePageHome w))
          ((requestHandlers w).take 18) ((requestHandlers w).drop 19) hget hroot
          rfl rfl rfl rfl rfl (by decide) (fun _ _ h => by simp [route, handlePageHome] at h)
      · refine hhandler c (hrules.dispatchRequest (.inr ?_)) h rfl
        refine StepRules.removeTrailingSlash fun {path response c} hc hpath hresponse => ?_
        have hslash : SlashRequest r path :=
          ⟨h.method.symm.trans hget, hc.path.symm.trans hpath, ?_, ?_⟩
        · obtain ⟨hunsent, page, hpage, hheaders⟩ := trailingSlashResponse_of_ok hresponse
          refine .unsent hc hunsent fun it hit => ?_
          rw [hheaders] at hit
          rcases List.mem_append.mp hit with hit | hit
          · exact hpage it hit
          · rw [List.mem_singleton.mp hit]
            exact plainHeader_of_value (by decide) (hredirect path response hslash hresponse)
        · rintro rfl
          exact hroot (h.path.trans (hc.path.symm.trans hpath))
        · rintro suffix rfl
          exact hdata ⟨suffix, h.path.trans (hc.path.symm.trans hpath)⟩
  · obtain ⟨method, hmethod⟩ : ∃ method, c.request.method = some method := by
      cases hmethod : c.request.method with
      | none =>
        simp only [dispatchRequest, redhttpServerDispatchRequest, bind_apply, get_apply,
          hmethod] at hrun
        cases hpath : c.request.path <;> simp [hpath] at hrun
      | some method => exact ⟨method, rfl⟩
    refine hhandler c (hrules.dispatchRequest (.inl fun c₁ hc₁ => ?_)) h rfl
    have hmethod₁ : c₁.request.method = some method :=
      hc₁.method.trans (h.method.symm.trans hmethod)
    refine matchRoute_of_method rfl hmethod₁ fun heq => hget ?_
    rw [hmethod, ← heq]

end Redirect

/-! ### The whole of a request -/

section Whole

variable {w : World T R σ} {addr port : CString} {input : List UInt8} {app : App σ} {r : Request}
  {result : ℕ} {sent : Response} {c' : Conn (App σ)}

/-- What is written for a request. -/
lemma handleRequest_answered (hw : PlainSurroundings w) (haddr : SingleLine addr)
    (hport : SingleLine port)
    (hread : redhttpRequestRead w.heap (waitingRequest addr port input) = .ok result r)
    (htarget : ∀ target ∈ r.pathAndQuery, SingleLine target)
    (hserved : handleRequest w ⟨waitingRequest addr port input, app⟩ = .ok sent c')
    (hr : r.hasHeaders = true) :
    (∃ body, c'.request.socket.output = headText sent ++ body) ∧
      (RedirectPlain w r ↔ PlainHeaders sent) := by
  obtain ⟨result', r', response, c₁, hread', hanswer, -, hsend⟩ := handleRequest_of_ok hserved
  obtain ⟨rfl, rfl⟩ : result = result' ∧ r = r' := by
    rw [hread] at hread'
    simpa using hread'
  have harrived := redhttpRequestRead_arrived.of_ok ⟨arrived_new haddr hport input, rfl⟩ hread
  have hunanswered : Unanswered r r :=
    ⟨⟨harrived.1.toAroundTarget, htarget⟩, harrived.1.signature, harrived.1.unanswered, rfl, rfl,
      rfl⟩
  by_cases hplain : RedirectPlain w r
  · -- nothing that cannot be printed
    have hanswered : Answered r response c₁.request := by
      have hdispatch : ∀ {c}, dispatchRequest w ⟨r, app⟩ = .ok (some response) c →
          Answered r response c.request :=
        dispatchRequest_answered hw hr hplain hunanswered harrived.1.pathGlob
      rw [answerRequest] at hanswer
      split at hanswer
      · cases hpage : redhttpResponseNewErrorPage w.heap .badRequest [] with
        | none =>
          simp only [hpage] at hanswer
          exact hdispatch hanswer
        | some page =>
          simp only [hpage, pure_apply, EStateM.Result.ok.injEq, Option.some.injEq] at hanswer
          obtain ⟨rfl, rfl⟩ := hanswer
          exact .unsent hunanswered (bodyIs_errorPage hpage).unsent (plainHeaders_errorPage hpage)
      · exact hdispatch hanswer
    obtain ⟨hheaders, houtput⟩ := hanswered.send hr hsend
    exact ⟨houtput, iff_of_true hplain hheaders⟩
  · -- the redirect, with its path in a header
    rw [RedirectPlain] at hplain
    push Not at hplain
    obtain ⟨path, redirect, hslash, hredirect, hbad⟩ := hplain
    have hresult : result = 0 := by
      by_contra hne
      rcases harrived.2 hne with hversion | hpost
      · rw [Request.hasHeaders, hversion] at hr
        cases hr
      · rw [Request.isPost, hslash.method] at hpost
        exact absurd hpost (by decide)
    have hrun : dispatchRequest w ⟨r, app⟩ = .ok (some redirect) (beforeHandlers ⟨r, app⟩) :=
      SlashRequest.dispatch hslash hredirect hbad
    have hdispatched : answerRequest w.heap (redstoreHandlers w) result ⟨r, app⟩ =
        dispatchRequest w ⟨r, app⟩ := by
      rw [answerRequest, hresult]
      rfl
    obtain ⟨rfl, rfl⟩ : redirect = response ∧ beforeHandlers ⟨r, app⟩ = c₁ := by
      have hboth := hrun.symm.trans (hdispatched.symm.trans hanswer)
      simpa using hboth
    obtain ⟨hunsent, page, -, hheaders⟩ := trailingSlashResponse_of_ok hredirect
    obtain ⟨rfl, houtput⟩ := hunanswered.send hr hunsent hsend
    refine ⟨houtput, iff_of_false ?_ fun hall => ?_⟩
    · exact fun h => hbad (h path redirect hslash hredirect)
    · have hlocation : (⟨HeaderName.location.1, storedValue (some (withoutSlash path))⟩ : Header) ∈
          (sentResponse w.now r redirect).headers := by
        obtain ⟨more, hmore⟩ : ∃ more, (addSendHeaders w.now r redirect).headers =
          redirect.headers ++ more := addSendHeaders_headers
        rw [headers_sentResponse hunsent, hmore, hheaders]
        simp
      exact hbad (plainValue_of_plainHeader (hall _ hlocation))

/-- Of a request whose target is on its line, the header block of the response is read back
exactly if the request is not redirected to a path that cannot be printed and all header lines fit
into the line buffer. -/
theorem headersIntact_iff (hw : PlainSurroundings w) (haddr : SingleLine addr)
    (hport : SingleLine port)
    (hread : redhttpRequestRead w.heap (waitingRequest addr port input) = .ok result r)
    (htarget : ∀ target ∈ r.pathAndQuery, SingleLine target)
    (hserved : handleRequest w ⟨waitingRequest addr port input, app⟩ = .ok sent c')
    (hr : r.hasHeaders = true) :
    HeadersIntact c'.request.socket.output sent ↔
      RedirectPlain w r ∧ ∀ it ∈ sent.headers, FitsLine it := by
  obtain ⟨⟨body, hbody⟩, hplain⟩ :=
    handleRequest_answered hw haddr hport hread htarget hserved hr
  have hrest : c'.request.socket.output =
      statusLine sent.status.code (bytesOf sent.status.message) ++ crlf ++
        (redhttpHeadersPrint sent.headers ++ (bytesOf "\r\n" ++ body)) := by
    rw [hbody, headText, statusLineText_eq]
    simp only [List.append_assoc]
  rw [hplain]
  constructor
  · rintro ⟨rest, body', houtput, hparses⟩
    obtain rfl : redhttpHeadersPrint sent.headers ++ (bytesOf "\r\n" ++ body) = rest :=
      List.append_cancel_left (hrest.symm.trans houtput)
    have hample : Heap.Ample ⟨fun _ => true, fun _ => 0⟩ := fun _ => rfl
    exact ⟨(hparses _ hample).plain, (hparses _ hample).fits hample⟩
  · rintro ⟨hheaders, hfits⟩
    exact ⟨_, body, hrest, blockIntact_iff.mpr fun it hit => ⟨hheaders it hit, hfits it hit⟩⟩

end Whole

/-! ### Two redirects -/

lemma memoryWorld_plainSurroundings : PlainSurroundings memoryWorld where
  uris := memoryWorld_idealUris
  types := by
    have hall : ∀ desc ∈
        memoryWorld.serializerDescriptions ++ memoryWorld.queryResultsFormatsDescriptions,
        ∀ type ∈ desc.mimeTypes.map Prod.fst, PlainValue type := by decide
    rintro type ⟨desc, hdesc, htype⟩
    exact hall desc hdesc type htype
  buildTime := by decide

/-- A request from the machine itself. -/
def localRequest (input : List UInt8) : Request :=
  waitingRequest (CString.lit "127.0.0.1") (CString.lit "8080") input

/-- What is read of an input, the response that is sent and the request behind it. -/
def localExchange (input : List UInt8) : Option (Request × Response × Conn (App MemoryStore)) :=
  match redhttpRequestRead memoryWorld.heap (localRequest input),
    handleRequest memoryWorld ⟨localRequest input, emptyApp⟩ with
  | .ok _ r, .ok sent c' => some (r, sent, c')
  | _, _ => none

lemma localExchange_eq_some {input : List UInt8} {r : Request} {sent : Response}
    {c' : Conn (App MemoryStore)} (h : localExchange input = some (r, sent, c')) :
    (∃ result, redhttpRequestRead memoryWorld.heap (localRequest input) = .ok result r) ∧
      handleRequest memoryWorld ⟨localRequest input, emptyApp⟩ = .ok sent c' := by
  rw [localExchange] at h
  split at h
  · next result r₁ sent₁ c₁ hread hserved =>
    obtain ⟨rfl, rfl, rfl⟩ : r₁ = r ∧ sent₁ = sent ∧ c₁ = c' := by simpa using h
    exact ⟨⟨result, hread⟩, hserved⟩
  · cases h

/-- The headers of a redirect to `/graphs` come back. -/
theorem headersIntact_graphs : ∃ r sent c',
    localExchange (plainInput "GET" "/graphs/") = some (r, sent, c') ∧
      sent.status = .movedPermanently ∧ HeadersIntact c'.request.socket.output sent := by
  obtain ⟨⟨r, sent, c'⟩, hexchange, hrun⟩ := (Option.any_eq_true _ _).mp
    (show (localExchange (plainInput "GET" "/graphs/")).any (fun it =>
      decide (it.1.hasHeaders = true ∧ it.1.path = some (CString.lit "/graphs/") ∧
        it.2.1.status = .movedPermanently ∧
        ∀ header ∈ it.2.1.headers, (printHeader header).length ≤ 2 ^ 30)) = true by decide +kernel)
  obtain ⟨hheaders, hpath, hstatus, hfits⟩ := of_decide_eq_true hrun
  obtain ⟨⟨result, hread⟩, hserved⟩ := localExchange_eq_some hexchange
  refine ⟨r, sent, c', hexchange, hstatus, (headersIntact_iff memoryWorld_plainSurroundings
    (by decide) (by decide) hread (singleLine_target (by decide) hread) hserved
    hheaders).mpr ⟨?_, hfits⟩⟩
  intro path response hslash _
  obtain rfl : CString.lit "/graphs/" = path := Option.some.inj (hpath.symm.trans hslash.path)
  decide

/-- A path with a line end in it puts a header of its own into the response. -/
theorem headersIntact_injected : ∃ r sent c',
    localExchange (plainInput "GET" "/%0d%0aSet-Cookie:%20a/") = some (r, sent, c') ∧
      ¬ HeadersIntact c'.request.socket.output sent := by
  obtain ⟨⟨r, sent, c'⟩, hexchange, hrun⟩ := (Option.any_eq_true _ _).mp
    (show (localExchange (plainInput "GET" "/%0d%0aSet-Cookie:%20a/")).any (fun it =>
      it.2.1.headers.any fun header =>
        header.value.any fun v => decide (ch '\r' ∈ v.bytes)) = true by decide +kernel)
  refine ⟨r, sent, c', hexchange, ?_⟩
  rintro ⟨rest, body, -, hparses⟩
  obtain ⟨header, hheader, hvalue⟩ := List.any_eq_true.mp hrun
  obtain ⟨v, hv, hbreak⟩ := (Option.any_eq_true _ _).mp hvalue
  obtain ⟨-, v', hv', hplain⟩ :=
    (hparses ⟨fun _ => true, fun _ => 0⟩ fun _ => rfl).plain header hheader
  obtain rfl : v' = v := Option.some.inj (hv'.symm.trans hv)
  exact (hplain.text _ (of_decide_eq_true hbreak)).1 rfl

end RedStore.Service
