/-
How responses are framed.

A handler of RedStore either returns a response that has been given a body and lets the server
send it, or sends a response without a buffer itself, streams the body behind it and returns
what it has sent.  The server sends whatever it is returned.  Either way one head and the body
once are written, with a Content-Length header exactly in the first case.  They come to the client
as an HTTP message unless something that it has sent is left in the stream, or a header has a
line end in it.
-/
import RedStore.RedHttp.FramedResponses
import RedStore.RedHttp.Routes
import RedStore.Service.MemoryWorld
import RedStore.Service.Routing

namespace RedStore.Service
open CLib RedHttp

variable {T R σ : Type}

/-! ### The two kinds of handlers -/

/-- Responses as the library and the pages make them, with the body that they have been given,
if they have been given one. -/
inductive Made (w : World T R σ) : Response → Option (List UInt8) → Prop where
  | new (status : Status) : Made w (redhttpResponseNew status) none
  | newEmpty (status : Status) : Made w (redhttpResponseNewEmpty status) (some [])
  | newErrorPage {code : Status} {explanation : List UInt8} {response : Response}
      (h : redhttpResponseNewErrorPage w.heap code explanation = some response) :
    Made w response (some (errorPageText code explanation))
  | textPage {code : Status} {message body : List UInt8} {c c' : Conn (App σ)}
      {response : Response} (h : textMessagePage w code message c = .ok response c')
      (hbody : response.contentBuffer = some body) (hlength : body.length < intRange) :
    Made w response (some body)
  | setContent {response : Response} {body : Option (List UInt8)} (h : Made w response body)
      {content : List UInt8} (hne : content ≠ []) (hlength : content.length < intRange) :
    Made w (redhttpResponseSetContent response content hne) (some content)
  | copyContent {response : Response} {body : Option (List UInt8)} (h : Made w response body)
      {content : List UInt8} (hne : content ≠ []) (hlength : content.length < intRange)
      (hgranted : w.heap.malloc (content.length + 1) = true) :
    Made w (redhttpResponseCopyContent w.heap response content hne) (some content)
  | addHeader {response : Response} {body : Option (List UInt8)} (h : Made w response body)
      {key : HeaderName} (hkey : sameKey HeaderName.contentLength.1 key.1 = false)
      (value : Option CString) :
    Made w (redhttpResponseAddHeader response key value) body

/-- A handler has written nothing, and the request still asks for the same. -/
structure Unwritten (c c' : Conn (App σ)) : Prop where
  output : c'.request.socket.output = c.request.socket.output
  serverSignature : c'.request.serverSignature = c.request.serverSignature
  version : c'.request.version = c.request.version
  method : c'.request.method = c.request.method

/-- A handler has sent a response without a buffer, has streamed some bytes and returns it; it
does not read on in between. -/
def SentItself (w : World T R σ) (c : Conn (App σ)) (response : Response)
    (c' : Conn (App σ)) (bytes : List UInt8) : Prop :=
  ∃ made c₁ c₂, Made w made none ∧ Unwritten c c₁ ∧
    onRequest (redhttpResponseSend w.now made) c₁ = .ok response c₂ ∧
    c'.request.socket.output = c₂.request.socket.output ++ bytes ∧
    c'.request.socket.input = c₂.request.socket.input ∧
    c'.request.version = c₂.request.version

/-- What a handler of the two kinds can come to: it declines, it returns a response with a body
that has not been sent, or one that it has sent itself. -/
inductive OfTwoKinds (w : World T R σ) (c : Conn (App σ)) :
    Option Response → Conn (App σ) → Prop where
  | declined {c' : Conn (App σ)} (h : Unwritten c c') : OfTwoKinds w c none c'
  | unsent {response : Response} {body : List UInt8} {c' : Conn (App σ)} (h : Unwritten c c')
      (hmade : Made w response (some body)) : OfTwoKinds w c (some response) c'
  | sent {response : Response} {bytes : List UInt8} {c' : Conn (App σ)}
      (h : SentItself w c response c' bytes) : OfTwoKinds w c (some response) c'

/-- Every run of a handler is of one of the two kinds. -/
def HandlerOfTwoKinds (w : World T R σ) (it : Handler (App σ)) : Prop :=
  ∀ c answer c', it.func c = .ok answer c' → OfTwoKinds w c answer c'

section Framing

variable {w : World T R σ}

/-- What a text page holds: its message and the text of the error buffer, as much of them as
there is room for. -/
lemma textMessagePage_bodyIs {code : Status} {message body : List UInt8} {c c' : Conn (App σ)}
    {response : Response} (h : textMessagePage w code message c = .ok response c')
    (hbody : response.contentBuffer = some body) (hlength : body.length < intRange) :
    BodyIs response (some body) := by
  simp only [textMessagePage, bind_apply, inspect_apply, pure_apply,
    EStateM.Result.ok.injEq] at h
  obtain ⟨rfl, -⟩ := h
  have hsame := Option.some.inj hbody
  subst hsame
  have htyped : BodyIs (redhttpResponseNewWithType code (CString.lit "text/plain")) none :=
    (bodyIs_new code).addHeader (by decide) _
  exact htyped.setContent _ hlength

/-- The fields of a response that has been made belong to its body. -/
lemma Made.bodyIs {response : Response} {body : Option (List UInt8)} (h : Made w response body) :
    BodyIs response body := by
  induction h with
  | new status => exact bodyIs_new status
  | newEmpty status => exact bodyIs_empty status
  | newErrorPage h => exact bodyIs_errorPage h
  | textPage h hbody hlength => exact textMessagePage_bodyIs h hbody hlength
  | setContent _ hne hlength ih => exact ih.setContent hne hlength
  | copyContent _ hne hlength hgranted ih => exact ih.copyContent hne hlength hgranted
  | addHeader _ hkey value ih => exact ih.addHeader hkey value

/-! ### The answers of the server -/

lemma Unwritten.refl (c : Conn (App σ)) : Unwritten c c := ⟨rfl, rfl, rfl, rfl⟩

lemma Unwritten.trans {c c₁ c₂ : Conn (App σ)} (h : Unwritten c c₁) (h' : Unwritten c₁ c₂) :
    Unwritten c c₂ :=
  ⟨h'.output.trans h.output, h'.serverSignature.trans h.serverSignature,
    h'.version.trans h.version, h'.method.trans h.method⟩

/-- A run of a handler behind something that wrote nothing. -/
lemma OfTwoKinds.after {c c₁ c' : Conn (App σ)} {answer : Option Response}
    (h : OfTwoKinds w c₁ answer c') (hbefore : Unwritten c c₁) : OfTwoKinds w c answer c' := by
  cases h with
  | declined h => exact .declined (hbefore.trans h)
  | unsent h hmade => exact .unsent (hbefore.trans h) hmade
  | sent h =>
    obtain ⟨made, c₂, c₃, hmade, hbefore', hbehind⟩ := h
    exact .sent ⟨made, c₂, c₃, hmade, hbefore.trans hbefore', hbehind⟩

lemma checkAllowedResponses_made {handlers : List (Handler (App σ))} {status : Status}
    {path : Option CString} {response : Response}
    (h : checkAllowedResponses w.heap status handlers path = .ok response) :
    ∃ body, Made w response (some body) := by
  rw [checkAllowedResponses] at h
  split at h
  · cases h
  · next page hpage =>
    obtain rfl := Except.ok.inj h
    have hmade : ∃ body, Made w page (some body) := by
      split at hpage
      · rw [← Option.some.inj hpage]
        exact ⟨_, .newEmpty _⟩
      · exact ⟨_, .newErrorPage hpage⟩
    obtain ⟨body, hmade⟩ := hmade
    exact ⟨body, hmade.addHeader (by decide) _⟩

lemma checkedResponse_made {handlers : List (Handler (App σ))} {status : Status}
    {path : Option CString} {response : Response}
    (h : (checkAllowedResponses w.heap status handlers path).map some = .ok (some response)) :
    ∃ body, Made w response (some body) := by
  cases hcheck : checkAllowedResponses w.heap status handlers path with
  | error e => simp [hcheck, Except.map] at h
  | ok page =>
    simp only [hcheck, Except.map, Except.ok.injEq, Option.some.injEq] at h
    exact h ▸ checkAllowedResponses_made hcheck

lemma fallbackResponse_made {handlers : List (Handler (App σ))} {method path : CString}
    {response : Response}
    (h : fallbackResponse w.heap handlers method path = .ok (some response)) :
    ∃ body, Made w response (some body) := by
  rw [fallbackResponse] at h
  dsimp only at h
  split at h
  · rw [← Option.some.inj (Except.ok.inj h)]
    exact ⟨_, .newEmpty _⟩
  · split at h
    · split at h
      · exact checkedResponse_made h
      · exact checkedResponse_made h
    · exact ⟨_, .newErrorPage (Except.ok.inj h)⟩

lemma asteriskResponse_made {handlers : List (Handler (App σ))} {method : CString}
    {response : Response} (h : asteriskResponse w.heap handlers method = .ok (some response)) :
    ∃ body, Made w response (some body) := by
  rw [asteriskResponse] at h
  split at h
  · exact checkedResponse_made h
  · split at h
    · cases h
    · next page hpage =>
      obtain rfl := Option.some.inj (Except.ok.inj h)
      exact ⟨_, (Made.newErrorPage hpage).addHeader (by decide) _⟩

/-! ### Dispatch -/

variable {handlers : List (Handler (App σ))}

lemma matchRoute_unwritten {it : Handler (App σ)} {c c' : Conn (App σ)} {b : Bool}
    (h : onRequest (matchRoute it) c = .ok b c') : Unwritten c c' := by
  have hkeeps : Keeps (fun r : Request =>
      (r.socket.output, r.serverSignature, r.version, r.method))
      (matchRoute it) := keeps_matchRoute (fun _ _ => rfl) it
  have hsame := hkeeps c.request
  rw [onRequest] at h
  cases hrun : matchRoute it c.request with
  | error e r => simp [hrun] at h
  | ok b' r =>
    simp only [hrun, EStateM.Result.ok.injEq] at h
    simp only [hrun, stateOf_ok, Prod.mk.injEq] at hsame
    rw [← h.2]
    exact ⟨hsame.1, hsame.2.1, hsame.2.2.1, hsame.2.2.2⟩

/-- The handlers of a table of the two kinds answer in the two ways, unless the request is for
a head. -/
lemma tryRoutes_ofTwoKinds
    (hkinds : ∀ it ∈ handlers, it.method ≠ some (CString.lit "HEAD") → HandlerOfTwoKinds w it)
    {c c' : Conn (App σ)} (hmethod : c.request.method ≠ some (CString.lit "HEAD"))
    {answer : Option Response} (h : tryRoutes handlers c = .ok answer c') :
    OfTwoKinds w c answer c' := by
  induction handlers generalizing c with
  | nil =>
    obtain ⟨rfl, rfl⟩ : none = answer ∧ c = c' := by simpa [tryRoutes] using h
    exact .declined (Unwritten.refl c)
  | cons it rest ih =>
    have hrest := fun {c₁ : Conn (App σ)} => ih (fun it' hit' => hkinds it' (by simp [hit']))
      (c := c₁)
    rw [tryRoutes, bind_apply] at h
    cases hmatch : onRequest (matchRoute it) c with
    | error e c₁ => simp [hmatch] at h
    | ok matched c₁ =>
      have hquiet := matchRoute_unwritten hmatch
      have hmethod₁ : c₁.request.method ≠ some (CString.lit "HEAD") := hquiet.method ▸ hmethod
      simp only [hmatch] at h
      cases matched with
      | false => exact (hrest hmethod₁ (by simpa using h)).after hquiet
      | true =>
        simp only [if_true, bind_apply] at h
        -- a handler for HEAD does not match
        have hit : it.method ≠ some (CString.lit "HEAD") := by
          intro hhead
          cases hm : c.request.method with
          | none => simp [onRequest, matchRoute, bind_apply, hhead, hm, matchMethod] at hmatch
          | some method =>
            have hne : CString.lit "HEAD" ≠ method := fun heq => hmethod (heq ▸ hm)
            have hno := matchRoute_of_method hhead hm hne
            simp [onRequest, hno] at hmatch
        have hkind := hkinds it (by simp) hit
        cases hrun : it.func c₁ with
        | error e c₂ => simp [hrun] at h
        | ok response c₂ =>
          simp only [hrun] at h
          have hanswer := hkind c₁ response c₂ hrun
          cases response with
          | some response =>
            obtain ⟨rfl, rfl⟩ : some response = answer ∧ c₂ = c' := by simpa using h
            exact hanswer.after hquiet
          | none =>
            cases hanswer with
            | declined hdeclined =>
              exact (hrest (hdeclined.method ▸ hmethod₁) h).after (hquiet.trans hdeclined)

lemma dispatchRequest_ofTwoKinds
    (hkinds : ∀ it ∈ handlers, it.method ≠ some (CString.lit "HEAD") → HandlerOfTwoKinds w it)
    {c c' : Conn (App σ)} (hmethod : c.request.method ≠ some (CString.lit "HEAD"))
    {response : Response}
    (h : redhttpServerDispatchRequest w.heap handlers c = .ok (some response) c') :
    OfTwoKinds w c (some response) c' := by
  simp only [redhttpServerDispatchRequest, bind_apply, get_apply] at h
  cases hpath : c.request.path with
  | none => simp [hpath] at h
  | some path =>
    cases hasked : c.request.method with
    | none => simp [hpath, hasked] at h
    | some method =>
      simp only [hpath, hasked] at h
      by_cases hstar : path = CString.lit "*"
      · rw [if_pos hstar] at h
        cases hanswer : asteriskResponse w.heap handlers method with
        | error e => simp [hanswer] at h
        | ok answer =>
          simp only [hanswer, ofExcept_ok, EStateM.Result.ok.injEq] at h
          obtain ⟨rfl, rfl⟩ := h
          obtain ⟨body, hmade⟩ := asteriskResponse_made hanswer
          exact .unsent (Unwritten.refl c) hmade
      · simp only [if_neg hstar, bind_apply] at h
        cases hroutes : tryRoutes handlers c with
        | error e c₁ => simp [hroutes] at h
        | ok answer c₁ =>
          have hkind := tryRoutes_ofTwoKinds hkinds hmethod hroutes
          simp only [hroutes] at h
          cases answer with
          | some answer =>
            simp only [pure_apply, EStateM.Result.ok.injEq, Option.some.injEq] at h
            obtain ⟨rfl, rfl⟩ := h
            exact hkind
          | none =>
            cases hkind with
            | declined hdeclined =>
              simp only [answerFallback, bind_apply, get_apply] at h
              cases hpath₁ : c₁.request.path with
              | none => simp [hpath₁] at h
              | some path₁ =>
                cases hmethod₁ : c₁.request.method with
                | none => simp [hpath₁, hmethod₁] at h
                | some method₁ =>
                  simp only [hpath₁, hmethod₁] at h
                  cases hanswer : fallbackResponse w.heap handlers method₁ path₁ with
                  | error e => simp [hanswer] at h
                  | ok answer =>
                    simp only [hanswer, ofExcept_ok, EStateM.Result.ok.injEq] at h
                    obtain ⟨rfl, rfl⟩ := h
                    obtain ⟨body, hmade⟩ := fallbackResponse_made hanswer
                    exact .unsent hdeclined hmade

/-- Whatever a request is answered with, the server itself included, is of one of the kinds. -/
lemma answerRequest_ofTwoKinds
    (hkinds : ∀ it ∈ handlers, it.method ≠ some (CString.lit "HEAD") → HandlerOfTwoKinds w it)
    {c c' : Conn (App σ)} (hmethod : c.request.method ≠ some (CString.lit "HEAD")) {result : ℕ}
    {response : Response}
    (h : answerRequest w.heap handlers result c = .ok (some response) c') :
    OfTwoKinds w c (some response) c' := by
  rw [answerRequest] at h
  split at h
  · cases hpage : redhttpResponseNewErrorPage w.heap .badRequest [] with
    | none =>
      simp only [hpage] at h
      exact dispatchRequest_ofTwoKinds hkinds hmethod h
    | some page =>
      simp only [hpage, pure_apply, EStateM.Result.ok.injEq, Option.some.injEq] at h
      obtain ⟨rfl, rfl⟩ := h
      exact .unsent (Unwritten.refl c) (.newErrorPage hpage)
  · exact dispatchRequest_ofTwoKinds hkinds hmethod h

/-! ### The bytes on the socket -/

lemma hasHeaders_of_version {r r' : Request} (h : r'.version = r.version) :
    r'.hasHeaders = r.hasHeaders := by
  rw [Request.hasHeaders, Request.hasHeaders, h]

/-- The body that a response comes with, and its length if that is known. -/
inductive AnswerBody (w : World T R σ) (c : Conn (App σ)) (response : Response)
    (c' : Conn (App σ)) : List UInt8 → Option ℕ → Prop where
  | unsent {body : List UInt8} (h : Made w response (some body)) :
    AnswerBody w c response c' body (some body.length)
  | sent {bytes : List UInt8} (h : SentItself w c response c' bytes) :
    AnswerBody w c response c' bytes none

/-- The final send completes what a handler of either kind has begun. -/
lemma OfTwoKinds.send {c c' : Conn (App σ)} {response : Response}
    (h : OfTwoKinds w c (some response) c') (hversion : c.request.hasHeaders = true)
    (hsignature : ∀ signature ∈ c.request.serverSignature, SingleLine signature) :
    ∃ sent r' body length, redhttpResponseSend w.now response c'.request = .ok sent r' ∧
      AnswerBody w c response c' body length ∧
      SentWith c.request.socket.output sent body length r' ∧
      r'.socket.input = c'.request.socket.input ∧
      ((∀ it ∈ sent.headers, OnOneLine it) ↔ ∀ it ∈ response.headers, OnOneLine it) := by
  cases h with
  | unsent hquiet hmade =>
    have hheaders : c'.request.hasHeaders = true :=
      (hasHeaders_of_version hquiet.version).trans hversion
    obtain ⟨r', hsend, hsent, hinput⟩ := hmade.bodyIs.send_body w.now hheaders
    refine ⟨_, r', _, _, hsend, .unsent hmade, hquiet.output ▸ hsent, hinput, ?_⟩
    rw [headers_sentResponse hmade.bodyIs.unsent]
    exact onOneLine_addSendHeaders_iff (hquiet.serverSignature ▸ hsignature)
  | @sent _ bytes _ hself =>
    obtain ⟨made, c₁, c₂, hmade, hquiet, hsend, houtput, -, -⟩ := id hself
    have hheaders : c₁.request.hasHeaders = true :=
      (hasHeaders_of_version hquiet.version).trans hversion
    obtain ⟨r₂, hhead, hsent, hbuffer⟩ := hmade.bodyIs.send_head w.now hheaders
    simp only [onRequest, hhead, EStateM.Result.ok.injEq] at hsend
    obtain ⟨rfl, rfl⟩ := hsend
    refine ⟨_, c'.request, bytes, none, send_again sentResponse_headersSent hbuffer,
      .sent hself, ⟨?_, hsent.lengths⟩, rfl, Iff.rfl⟩
    rw [houtput, hsent.output, hquiet.output, List.append_nil]

/-- The answer of a handler of either kind comes to the client as one message exactly when
nothing waits in the stream and no header breaks its line. -/
lemma OfTwoKinds.framed_iff {signature : Option CString}
    (hsignature : ∀ s ∈ signature, SingleLine s) {addr port : CString}
    {portions : List (Portion UInt8)} {app : App σ} {result : ℕ} {r : Request}
    (hread : redhttpRequestRead w.heap
      (redhttpRequestNew signature addr port (portionBytes portions)) = .ok result r)
    (hversion : r.hasHeaders = true) {response : Response} {c₁ : Conn (App σ)}
    (hanswer : answerRequest w.heap handlers result ⟨r, app⟩ = .ok (some response) c₁)
    (hkind : OfTwoKinds w ⟨r, app⟩ (some response) c₁) :
    ∃ sent c', redhttpServerHandleRequest w.heap w.now handlers
        ⟨redhttpRequestNew signature addr port (portionBytes portions), app⟩ = .ok sent c' ∧
      ((∃ body length, AnswerBody w ⟨r, app⟩ response c₁ body length ∧
          Framed (delivered portions c'.request) sent body length) ↔
        NothingWaits portions c₁.request ∧ ∀ it ∈ response.headers, OnOneLine it) := by
  have hkept := keeps_read w.heap (redhttpRequestNew signature addr port (portionBytes portions))
  rw [hread] at hkept
  have houtput : r.socket.output = [] := congrArg ConnectionSide.output hkept
  have hsigned : r.serverSignature = signature := congrArg ConnectionSide.signature hkept
  obtain ⟨sent, r', body, length, hsend, hbody, hsent, hinput, hlines⟩ :=
    hkind.send hversion (hsigned ▸ hsignature)
  have hwaits : NothingWaits portions r' ↔ NothingWaits portions c₁.request :=
    nothingWaits_congr hinput
  have hwritten : r'.socket.output = headText sent ++ body := by
    rw [hsent.output, houtput, List.nil_append]
  refine ⟨sent, { c₁ with request := r' }, ?_, ?_⟩
  · have hreadConn : onRequest (redhttpRequestRead w.heap)
        (⟨redhttpRequestNew signature addr port (portionBytes portions), app⟩ : Conn (App σ)) =
          .ok result ⟨r, app⟩ := by
      simp only [onRequest, hread]
    rw [redhttpServerHandleRequest_eq, bind_of_ok hreadConn, bind_of_ok hanswer, sendAnswer]
    simp only [onRequest, hsend]
  rw [← hwaits, ← hlines]
  by_cases hnothing : NothingWaits portions r'
  · rw [and_iff_right hnothing, delivered_of_nothingWaits hnothing, hwritten]
    constructor
    · rintro ⟨_, _, -, m, -, -, -, hfields, -⟩
      exact onOneLine_of_fields hfields
    · exact fun hone => ⟨body, length, hbody, (RedHttp.framed_iff hsent.lengths).mpr hone⟩
  · -- nothing comes to the client
    rw [delivered_of_waiting hnothing]
    refine iff_of_false ?_ fun h => hnothing h.1
    rintro ⟨_, _, -, hframed⟩
    exact not_framed_nil hframed

/-- A short page, and a table with one handler, which returns it. -/
def greetingPage : Response :=
  redhttpResponseSetContent (redhttpResponseNew .ok) (bytesOf "Hi") (by decide)

def greetingHandlers : List (Handler (App MemoryStore)) := [⟨none, none, pure (some greetingPage)⟩]

/-- A request on the wire, and what is read of it. -/
def greetingInput : List UInt8 := bytesOf "GET / HTTP/1.0\r\n\r\n"

def greetingRequest : Request where
  method := some (CString.lit "GET")
  pathAndQuery := some (CString.lit "/")
  path := some (CString.lit "/")
  version := some (CString.lit "1.0")

lemma read_greeting : redhttpRequestRead memoryWorld.heap
    (redhttpRequestNew none default default greetingInput) = .ok 0 greetingRequest := by
  have hline : redhttpRequestReadStatusLine memoryWorld.heap
      (redhttpRequestNew none default default greetingInput) =
        .ok 0 (greetingRequest.withInput (bytesOf "\r\n")) := by rfl
  have hempty : readLineFrom memoryWorld.heap bufsiz (bytesOf "\r\n") =
      .ok (some (lineMemory memoryWorld.heap bufsiz bufsiz [0]), []) := by rfl
  have hheaders : readHeadersFrom memoryWorld.heap (greetingRequest.withInput (bytesOf "\r\n")) =
      .ok () greetingRequest := readHeadersFrom_of_empty hempty (by rfl)
  rw [redhttpRequestRead_of_statusLine hline, redhttpRequestReadRest, bind_of_ok (get_apply _),
    if_pos (by decide), readHeaders, bind_of_ok hheaders]
  rfl

/-- The request in one portion. -/
def greetingPortions : List (Portion UInt8) := [⟨ch 'G', bytesOf "ET / HTTP/1.0\r\n\r\n"⟩]

lemma read_greetingPortions : redhttpRequestRead memoryWorld.heap
    (redhttpRequestNew none default default (portionBytes greetingPortions)) =
      .ok 0 greetingRequest := read_greeting

/-- A request with something behind it, in one portion. -/
def robotsPortions : List (Portion UInt8) :=
  [⟨ch 'G', bytesOf "ET /robots.txt HTTP/1.0\r\n\r\nextra"⟩]

def robotsRequest : Request where
  method := some (CString.lit "GET")
  pathAndQuery := some (CString.lit "/robots.txt")
  path := some (CString.lit "/robots.txt")
  version := some (CString.lit "1.0")
  socket := { input := bytesOf "extra" }

lemma read_robots : redhttpRequestRead memoryWorld.heap
    (redhttpRequestNew none default default (portionBytes robotsPortions)) =
      .ok 0 robotsRequest := by
  have hline : redhttpRequestReadStatusLine memoryWorld.heap
      (redhttpRequestNew none default default (portionBytes robotsPortions)) =
        .ok 0 (robotsRequest.withInput (bytesOf "\r\nextra")) := by rfl
  have hempty : readLineFrom memoryWorld.heap bufsiz (bytesOf "\r\nextra") =
      .ok (some (lineMemory memoryWorld.heap bufsiz bufsiz [0]), bytesOf "extra") := by rfl
  have hheaders : readHeadersFrom memoryWorld.heap
      (robotsRequest.withInput (bytesOf "\r\nextra")) = .ok () robotsRequest :=
    readHeadersFrom_of_empty hempty (by rfl)
  rw [redhttpRequestRead_of_statusLine hline, redhttpRequestReadRest, bind_of_ok (get_apply _),
    if_pos (by decide), readHeaders, bind_of_ok hheaders]
  rfl

end Framing

end RedStore.Service
