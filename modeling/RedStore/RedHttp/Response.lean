/-
`response.c`: responses and how they are sent.

The status codes are those of the enumeration in `redhttp.h`, all of them in the range that
`redhttp_response_new` asserts, and the headers of a response are added under names that
are not empty, which is what `redhttp_headers_add` asserts; the types `Status` and
`HeaderName` carry both facts.
-/
import RedStore.CLib.Text
import RedStore.RedHttp.RequestRead

namespace RedStore.RedHttp
open CLib

/-- The status codes of `redhttp.h`. -/
inductive Status where
  | ok | created | accepted | noContent
  | movedPermanently | movedTemporarily | seeOther | notModified
  | badRequest | unauthorized | forbidden | notFound | methodNotAllowed | notAcceptable
  | internalServerError | notImplemented | badGateway | serviceUnavailable
deriving DecidableEq

/-- The number of a status. -/
def Status.code : Status → ℕ
  | .ok => 200 | .created => 201 | .accepted => 202 | .noContent => 204
  | .movedPermanently => 301 | .movedTemporarily => 302 | .seeOther => 303
  | .notModified => 304
  | .badRequest => 400 | .unauthorized => 401 | .forbidden => 403 | .notFound => 404
  | .methodNotAllowed => 405 | .notAcceptable => 406
  | .internalServerError => 500 | .notImplemented => 501 | .badGateway => 502
  | .serviceUnavailable => 503

/-- `redhttp_response_status_message_for_code`. -/
def Status.message : Status → String
  | .ok => "OK" | .created => "Created" | .accepted => "Accepted" | .noContent => "No Content"
  | .movedPermanently => "Moved Permanently" | .movedTemporarily => "Moved Temporarily"
  | .seeOther => "See Other" | .notModified => "Not Modified"
  | .badRequest => "Bad Request" | .unauthorized => "Unauthorized" | .forbidden => "Forbidden"
  | .notFound => "Not Found" | .methodNotAllowed => "Method Not Allowed"
  | .notAcceptable => "Not Acceptable"
  | .internalServerError => "Internal Server Error" | .notImplemented => "Not Implemented"
  | .badGateway => "Bad Gateway" | .serviceUnavailable => "Service Unavailable"

/-- Every status passes the assertion of `redhttp_response_new`. -/
lemma Status.code_range (s : Status) : 100 ≤ s.code ∧ s.code < 1000 := by
  cases s <;> decide

/-- The name of a header that a response can have. -/
abbrev HeaderName : Type := {key : CString // key.strlen ≠ 0}

namespace HeaderName

def contentType : HeaderName := ⟨CString.lit "Content-Type", by decide⟩
def contentLength : HeaderName := ⟨CString.lit "Content-Length", by decide⟩
def location : HeaderName := ⟨CString.lit "Location", by decide⟩
def allow : HeaderName := ⟨CString.lit "Allow", by decide⟩
def date : HeaderName := ⟨CString.lit "Date", by decide⟩
def connection : HeaderName := ⟨CString.lit "Connection", by decide⟩
def server : HeaderName := ⟨CString.lit "Server", by decide⟩
def lastModified : HeaderName := ⟨CString.lit "Last-Modified", by decide⟩

end HeaderName

/-- `struct redhttp_response_s`. -/
structure Response where
  headers : List Header := []
  status : Status
  contentBuffer : Option (List UInt8) := none
  /-- -1 when it is not known. -/
  contentLength : ℤ := -1
  headersSent : Bool := false
deriving DecidableEq

/-- `redhttp_response_new` with the message of the status. -/
def redhttpResponseNew (code : Status) : Response := { status := code }

/-- `redhttp_response_new_empty`. -/
def redhttpResponseNewEmpty (status : Status) : Response :=
  { redhttpResponseNew status with contentLength := 0 }

/-- `redhttp_response_add_header`. -/
def redhttpResponseAddHeader (response : Response) (key : HeaderName) (value : Option CString) :
    Response :=
  { response with headers := response.headers ++ [⟨key.1, storedValue value⟩] }

/-- `redhttp_response_new_with_type` with the message of the status. -/
def redhttpResponseNewWithType (status : Status) (type : CString) : Response :=
  redhttpResponseAddHeader (redhttpResponseNew status) HeaderName.contentType (some type)

/-- `redhttp_response_set_content`; the content is not empty, as it asserts. -/
def redhttpResponseSetContent (response : Response) (content : List UInt8)
    (_ : content ≠ []) : Response :=
  { response with contentBuffer := some content, contentLength := intOfSize content.length }

/-- `redhttp_response_copy_content`; without memory for the copy the response stays as it is. -/
def redhttpResponseCopyContent (heap : Heap) (response : Response) (content : List UInt8)
    (h : content ≠ []) : Response :=
  if heap.malloc (content.length + 1) then redhttpResponseSetContent response content h
  else response

/-! ### Error pages -/

/-- The result of `snprintf(NULL, 0, ...)` on a text: its length, or -1 for a text that is
too long for an `int`. -/
def snprintfLength (text : List UInt8) : ℤ :=
  if text.length < intRange then text.length else -1

/-- `ERROR_PAGE_FMT`, filled in. -/
def errorPageText (code : Status) (explanation : List UInt8) : List UInt8 :=
  bytesOf "<?xml version=\"1.0\" encoding=\"utf-8\"?>\n" ++
  bytesOf "<!DOCTYPE html PUBLIC \"-//W3C//DTD XHTML 1.0 Strict//EN\"\n" ++
  bytesOf " \"http://www.w3.org/TR/xhtml1/DTD/xhtml1-strict.dtd\">\n" ++
  bytesOf "<html xmlns=\"http://www.w3.org/1999/xhtml\">\n" ++
  bytesOf "<head><meta charset=\"utf-8\" /><title>" ++ decimal code.code ++ bytesOf " " ++
  bytesOf code.message ++ bytesOf "</title></head>\n" ++
  bytesOf "<body>\n<h1>" ++ decimal code.code ++ bytesOf " " ++ bytesOf code.message ++
  bytesOf "</h1>\n" ++ bytesOf "<p>" ++ explanation ++ bytesOf "</p>\n" ++
  bytesOf "</body></html>\n"

/-- `redhttp_response_new_error_page`; `none` is its NULL. -/
def redhttpResponseNewErrorPage (heap : Heap) (code : Status) (explanation : List UInt8) :
    Option Response :=
  let text := errorPageText code explanation
  let contentLength := snprintfLength text
  if contentLength ≤ 0 then none
  else if heap.malloc (text.length + 1) then
    some { redhttpResponseNewWithType code (CString.lit "text/html") with
      contentLength, contentBuffer := some text }
  else none

/-- `MESSAGE_FMT` of `redhttp_response_new_redirect`, filled in. -/
def redirectMessage (url : CString) : List UInt8 :=
  bytesOf "The document has moved <a href=\"" ++ url.bytes ++ bytesOf "\">here</a>."

/-- `redhttp_response_new_redirect`. -/
def redhttpResponseNewRedirect (heap : Heap) (url : CString) (code : Status) :
    Option Response :=
  let message := redirectMessage url
  if heap.malloc (message.length + 1) then
    (redhttpResponseNewErrorPage heap code message).map fun response =>
      redhttpResponseAddHeader response HeaderName.location (some url)
  else none

/-! ### Sending -/

/-- A request with more written to its socket. -/
def Request.write (r : Request) (bytes : List UInt8) : Request :=
  { r with socket := { r.socket with output := r.socket.output ++ bytes } }

/-- Bytes written to the socket. -/
def fwrite (bytes : List UInt8) : RequestM Unit := modify fun r => r.write bytes

/-- The headers that `redhttp_response_send` adds. -/
def addSendHeaders (now : Option Tm) (r : Request) (response : Response) : Response :=
  let response :=
    if response.contentLength ≥ 0 then
      redhttpResponseAddHeader response HeaderName.contentLength
        (some (CString.ofBytes (decimalInt response.contentLength)))
    else response
  let response := match now with
    | some tm =>
      redhttpResponseAddHeader response HeaderName.date (some (CString.ofBytes (rfc1123 tm)))
    | none => response
  let response :=
    redhttpResponseAddHeader response HeaderName.connection (some (CString.lit "Close"))
  match r.serverSignature with
  | some signature => redhttpResponseAddHeader response HeaderName.server (some signature)
  | none => response

/-- The status line of a response. -/
def statusLineText (response : Response) : List UInt8 :=
  bytesOf "HTTP/1.0 " ++ decimal response.status.code ++ bytesOf " " ++
    bytesOf response.status.message ++ bytesOf "\r\n"

/-- The status line, the header block and the empty line. -/
def headText (response : Response) : List UInt8 :=
  statusLineText response ++ redhttpHeadersPrint response.headers ++ bytesOf "\r\n"

/-- The first part of `redhttp_response_send`: the headers, unless they are sent already. -/
def sendHeaders (now : Option Tm) (response : Response) : RequestM Response := do
  if response.headersSent then pure response
  else
    let r ← get
    let response := addSendHeaders now r response
    if r.hasHeaders then fwrite (headText response)
    pure { response with headersSent := true }

/-- `redhttp_response_send`. -/
def redhttpResponseSend (now : Option Tm) (response : Response) : RequestM Response := do
  let response ← sendHeaders now response
  match response.contentBuffer with
  | none => pure response
  | some content =>
    -- assert(response->content_length > 0)
    if response.contentLength ≤ 0 then throw .assertion
    fwrite (content.take response.contentLength.toNat)
    pure response

/-! ### What sending does -/

section Send

variable {now : Option Tm} {response : Response} {r : Request}

/-- A response after its headers have been sent. -/
def sentResponse (now : Option Tm) (r : Request) (response : Response) : Response :=
  if response.headersSent then response
  else { addSendHeaders now r response with headersSent := true }

/-- What sending the headers of a response writes. -/
def sentHead (now : Option Tm) (r : Request) (response : Response) : List UInt8 :=
  if response.headersSent = false ∧ r.hasHeaders = true then
    headText (addSendHeaders now r response)
  else []

lemma write_nil : r.write [] = r := by
  simp [Request.write]

lemma sendHeaders_apply : sendHeaders now response r =
    .ok (sentResponse now r response) (r.write (sentHead now r response)) := by
  rw [sendHeaders, sentResponse, sentHead]
  cases response.headersSent with
  | true => simp [write_nil]
  | false =>
    simp only [Bool.false_eq_true, if_false, bind_apply, get_apply, true_and]
    split
    · rfl
    · rw [write_nil]
      rfl

lemma sentResponse_status : (sentResponse now r response).status = response.status := by
  rw [sentResponse]
  split
  · rfl
  · simp only [addSendHeaders]
    split <;> split <;> split <;> rfl

lemma sentResponse_contentBuffer :
    (sentResponse now r response).contentBuffer = response.contentBuffer := by
  rw [sentResponse]
  split
  · rfl
  · simp only [addSendHeaders]
    split <;> split <;> split <;> rfl

lemma sentResponse_contentLength :
    (sentResponse now r response).contentLength = response.contentLength := by
  rw [sentResponse]
  split
  · rfl
  · simp only [addSendHeaders]
    split <;> split <;> split <;> rfl

lemma sentResponse_headersSent : (sentResponse now r response).headersSent = true := by
  rw [sentResponse]
  split
  · next h => exact h
  · rfl

/-- Sending a response without a buffer sends its headers. -/
lemma redhttpResponseSend_of_none (h : response.contentBuffer = none) :
    redhttpResponseSend now response r =
      .ok (sentResponse now r response) (r.write (sentHead now r response)) := by
  rw [redhttpResponseSend, bind_of_ok sendHeaders_apply]
  simp only [sentResponse_contentBuffer, h, pure_apply]

/-- What is written of a buffer behind the headers. -/
def sentContent (response : Response) : List UInt8 :=
  (response.contentBuffer.getD []).take response.contentLength.toNat

lemma write_write (r : Request) (s t : List UInt8) : (r.write s).write t = r.write (s ++ t) := by
  simp [Request.write]

/-- A response is sent with its content, unless it has a buffer and no length. -/
lemma redhttpResponseSend_eq : redhttpResponseSend now response r =
    if response.contentBuffer.isSome = true ∧ response.contentLength ≤ 0 then
      .error .assertion (r.write (sentHead now r response))
    else .ok (sentResponse now r response)
      (r.write (sentHead now r response ++ sentContent response)) := by
  rw [redhttpResponseSend, bind_of_ok sendHeaders_apply, sentContent]
  simp only [sentResponse_contentBuffer]
  cases response.contentBuffer with
  | none => simp
  | some content =>
    simp only [sentResponse_contentLength, Option.isSome_some, true_and, Option.getD_some]
    split
    · rfl
    · simp only [bind_apply, fwrite, modify_apply, pure_apply, write_write]

/-- Sending adds headers behind those that are there. -/
lemma addSendHeaders_headers : ∃ more,
    (addSendHeaders now r response).headers = response.headers ++ more := by
  simp only [addSendHeaders]
  split <;> split <;> split <;> simp [redhttpResponseAddHeader]

end Send

end RedStore.RedHttp
