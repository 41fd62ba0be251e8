/-
What a response looks like to the client.

Three fields of a response decide what `redhttp_response_send` writes: whether the headers have
been sent, the length of the content and its buffer.  `BodyIs` is what the constructors and
setters make of them for a response with a body and for one without; sending such a response
writes one head, with one Content-Length header or none, and the body once.  This is an HTTP
message unless a header breaks its line.  The client gets it unless something that it has sent
waits in the stream.
-/
import RedStore.CLib.Stream
import RedStore.RedHttp.HeaderMap
import RedStore.RedHttp.MessageFormat
import RedStore.RedHttp.PlainResponses

namespace RedStore.RedHttp
open CLib

/-- The Content-Length headers of a list. -/
def contentLengths (headers : List Header) : List Header :=
  headers.filter fun it => sameKey HeaderName.contentLength.1 it.key

/-- The Content-Length header for a body. -/
def lengthHeader (length : ℕ) : Header :=
  ⟨HeaderName.contentLength.1, some (CString.ofBytes (decimalInt length))⟩

/-- What the length and the buffer of a response are for a body, or without one. -/
def ContentIs (response : Response) : Option (List UInt8) → Prop
  | none => response.contentBuffer = none ∧ response.contentLength = -1
  | some body => response.contentLength = body.length ∧ response.contentBuffer.getD [] = body ∧
      (response.contentBuffer.isSome = true → body ≠ [])

/-- A response that has not been sent, with a body or without one. -/
structure BodyIs (response : Response) (body : Option (List UInt8)) : Prop where
  unsent : response.headersSent = false
  unmeasured : contentLengths response.headers = []
  content : ContentIs response body

/-! ### How responses are made -/

section Made

variable {response : Response} {body : Option (List UInt8)}

lemma bodyIs_new (status : Status) : BodyIs (redhttpResponseNew status) none :=
  ⟨rfl, rfl, rfl, rfl⟩

lemma bodyIs_empty (status : Status) : BodyIs (redhttpResponseNewEmpty status) (some []) :=
  ⟨rfl, rfl, rfl, rfl, by simp [redhttpResponseNewEmpty, redhttpResponseNew]⟩

lemma BodyIs.addHeader (h : BodyIs response body) {key : HeaderName}
    (hkey : sameKey HeaderName.contentLength.1 key.1 = false) (value : Option CString) :
    BodyIs (redhttpResponseAddHeader response key value) body where
  unsent := h.unsent
  unmeasured := by
    have hold := h.unmeasured
    rw [contentLengths] at hold
    rw [contentLengths, redhttpResponseAddHeader, List.filter_append, hold]
    simp [hkey]
  content := by
    cases body with
    | none => exact h.content
    | some body => exact h.content

lemma BodyIs.setContent (h : BodyIs response body) {content : List UInt8} (hne : content ≠ [])
    (hlength : content.length < intRange) :
    BodyIs (redhttpResponseSetContent response content hne) (some content) where
  unsent := h.unsent
  unmeasured := h.unmeasured
  content := by
    have hvalue : intOfSize content.length = content.length :=
      intOfSize_of_lt (Int.natCast_nonneg _) (Int.ofNat_lt.mpr hlength)
    simp only [redhttpResponseSetContent, ContentIs, hvalue, Option.getD_some, true_and]
    exact fun _ => hne

lemma BodyIs.copyContent (h : BodyIs response body) {heap : Heap} {content : List UInt8}
    (hne : content ≠ []) (hlength : content.length < intRange)
    (hgranted : heap.malloc (content.length + 1) = true) :
    BodyIs (redhttpResponseCopyContent heap response content hne) (some content) := by
  rw [redhttpResponseCopyContent, if_pos hgranted]
  exact h.setContent hne hlength

lemma bodyIs_errorPage {heap : Heap} {code : Status} {explanation : List UInt8}
    (h : redhttpResponseNewErrorPage heap code explanation = some response) :
    BodyIs response (some (errorPageText code explanation)) := by
  simp only [redhttpResponseNewErrorPage] at h
  generalize errorPageText code explanation = text at h ⊢
  split_ifs at h with hlength
  have hvalue : snprintfLength text = text.length := by
    rw [snprintfLength] at hlength ⊢
    split
    · rfl
    · next hlong =>
      rw [if_neg hlong] at hlength
      omega
  have htyped : BodyIs (redhttpResponseNewWithType code (CString.lit "text/html")) none :=
    (bodyIs_new code).addHeader (by decide) _
  rw [← Option.some.inj h]
  refine ⟨htyped.unsent, htyped.unmeasured, hvalue, rfl, fun _ hnil => ?_⟩
  rw [hvalue, hnil] at hlength
  exact hlength (Int.le_refl 0)

end Made

/-! ### Sending -/

section Send

variable {now : Option Tm} {response : Response} {r : Request}

/-- Sending adds a Content-Length header exactly when the length is known. -/
lemma contentLengths_addSendHeaders (h : contentLengths response.headers = []) :
    contentLengths (addSendHeaders now r response).headers =
      if 0 ≤ response.contentLength then
        [⟨HeaderName.contentLength.1, some (CString.ofBytes (decimalInt response.contentLength))⟩]
      else [] := by
  have hself : sameKey HeaderName.contentLength.1 HeaderName.contentLength.1 = true := by decide
  have hdate : sameKey HeaderName.contentLength.1 HeaderName.date.1 = false := by decide
  have hconnection : sameKey HeaderName.contentLength.1 HeaderName.connection.1 = false := by
    decide
  have hserver : sameKey HeaderName.contentLength.1 HeaderName.server.1 = false := by decide
  have hstored : ∀ n : ℤ, storedValue (some (CString.ofBytes (decimalInt n))) =
      some (CString.ofBytes (decimalInt n)) :=
    fun n => storedValue_of_plain (plainValue_decimalInt n)
  have hadd : ∀ (response : Response) (key : HeaderName) (value : Option CString),
      contentLengths (redhttpResponseAddHeader response key value).headers =
        contentLengths response.headers ++
          if sameKey HeaderName.contentLength.1 key.1 then [⟨key.1, storedValue value⟩] else [] := by
    intro response key value
    rw [contentLengths, redhttpResponseAddHeader, List.filter_append, ← contentLengths]
    congr 1
    simp [List.filter_cons]
  unfold addSendHeaders
  cases r.serverSignature <;> cases now <;>
    simp only [hadd, hdate, hconnection, hserver, Bool.false_eq_true, if_false,
      List.append_nil] <;>
    split <;> simp [hadd, hself, hstored, h]

/-- What has been written and which headers, behind the sending of a response with a body. -/
structure SentWith (output : List UInt8) (sent : Response) (body : List UInt8)
    (length : Option ℕ) (r : Request) : Prop where
  output : r.socket.output = output ++ headText sent ++ body
  lengths : contentLengths sent.headers = length.elim [] fun n => [lengthHeader n]

lemma headText_sentResponse (h : response.headersSent = false) :
    headText (sentResponse now r response) = headText (addSendHeaders now r response) := by
  rw [sentResponse, h]
  rfl

lemma headers_sentResponse (h : response.headersSent = false) :
    (sentResponse now r response).headers = (addSendHeaders now r response).headers := by
  rw [sentResponse, h]
  rfl

lemma sentHead_of_unsent (h : response.headersSent = false) (hr : r.hasHeaders = true) :
    sentHead now r response = headText (sentResponse now r response) := by
  rw [sentHead, if_pos ⟨h, hr⟩, headText_sentResponse h]

lemma BodyIs.sentContent {body : List UInt8} (h : BodyIs response (some body)) :
    sentContent response = body := by
  obtain ⟨hlength, hbuffer, -⟩ := h.content
  rw [RedHttp.sentContent, hbuffer, hlength, Int.toNat_natCast, List.take_length]

/-- A response with a body is sent with its head and its length, and with the body. -/
theorem BodyIs.send_body {body : List UInt8} (h : BodyIs response (some body))
    (now : Option Tm) (hr : r.hasHeaders = true) :
    ∃ r', redhttpResponseSend now response r = .ok (sentResponse now r response) r' ∧
      SentWith r.socket.output (sentResponse now r response) body (some body.length) r' ∧
      r'.socket.input = r.socket.input := by
  obtain ⟨hlength, -, hne⟩ := h.content
  have hcan : ¬ (response.contentBuffer.isSome = true ∧ response.contentLength ≤ 0) := by
    rintro ⟨hsome, hle⟩
    have hzero : body.length = 0 := by omega
    exact hne hsome (List.length_eq_zero_iff.mp hzero)
  have hsend : redhttpResponseSend now response r = .ok (sentResponse now r response)
      (r.write (sentHead now r response ++ RedHttp.sentContent response)) := by
    rw [redhttpResponseSend_eq, if_neg hcan]
  refine ⟨_, hsend, ⟨?_, ?_⟩, rfl⟩
  · show r.socket.output ++ _ = _
    rw [sentHead_of_unsent h.unsent hr, h.sentContent, List.append_assoc]
  · rw [headers_sentResponse h.unsent, contentLengths_addSendHeaders h.unmeasured, if_pos (by omega),
      hlength]
    rfl

/-- A response without a body is sent with its head. -/
theorem BodyIs.send_head (h : BodyIs response none) (now : Option Tm)
    (hr : r.hasHeaders = true) :
    ∃ r', redhttpResponseSend now response r = .ok (sentResponse now r response) r' ∧
      SentWith r.socket.output (sentResponse now r response) [] none r' ∧
      (sentResponse now r response).contentBuffer = none := by
  obtain ⟨hbuffer, hlength⟩ := h.content
  refine ⟨_, redhttpResponseSend_of_none hbuffer, ⟨?_, ?_⟩,
    sentResponse_contentBuffer.trans hbuffer⟩
  · show r.socket.output ++ _ = _
    rw [sentHead_of_unsent h.unsent hr, List.append_nil]
  · rw [headers_sentResponse h.unsent, contentLengths_addSendHeaders h.unmeasured,
      if_neg (by omega)]
    rfl

/-- A response that has been sent and has no buffer is not sent again. -/
lemma send_again (hsent : response.headersSent = true) (hbuffer : response.contentBuffer = none) :
    redhttpResponseSend now response r = .ok response r := by
  rw [redhttpResponseSend_of_none hbuffer, sentResponse, sentHead, if_pos hsent,
    if_neg (by simp [hsent]), write_nil]

end Send

/-! ### The message -/

/-- A header that stays on its line. -/
structure OnOneLine (it : Header) : Prop where
  key : PlainKey it.key
  value : ∀ v ∈ it.value, SingleLine v

/-- The name and the value that are printed of a header. -/
def headerEntry (it : Header) : List UInt8 × List UInt8 :=
  (it.key.bytes, it.value.elim (bytesOf "(null)") CString.bytes)

/-- The bytes are an HTTP message with the status, the headers and the body, which is measured
by Content-Length fields if its length is given, and by none otherwise. -/
def Framed (output : List UInt8) (sent : Response) (body : List UInt8) (length : Option ℕ) :
    Prop :=
  ∃ m : HttpMessage, m.bytes = output ∧ m.code = sent.status.code ∧
    m.phrase = bytesOf sent.status.message ∧
    m.fields.map FieldLine.entry = sent.headers.map headerEntry ∧ m.body = body ∧
    m.contentLengths = length.elim [] fun n => [decimal n]

section Message

variable {sent response : Response} {body : List UInt8} {length : Option ℕ}

lemma OnOneLine.exists_field {it : Header} (h : OnOneLine it) :
    ∃ f : FieldLine, f.entry = headerEntry it ∧ f.text ++ crlf = printHeader it := by
  have hvalue : ∀ c ∈ (headerEntry it).2, LineByte c := by
    intro c hc
    obtain ⟨key, _ | v⟩ := it
    · exact forall_mem_of_all (s := bytesOf "(null)") (by decide) c hc
    · exact h.value v rfl c hc
  refine ⟨⟨it.key.bytes, (headerEntry it).2, h.key.ne, h.key.text, hvalue⟩, rfl, ?_⟩
  simp only [FieldLine.text, printHeader, headerEntry, List.append_assoc]
  rfl

lemma exists_fields {headers : List Header} (h : ∀ it ∈ headers, OnOneLine it) :
    ∃ fields : List FieldLine, fields.map FieldLine.entry = headers.map headerEntry ∧
      fieldLines fields = redhttpHeadersPrint headers := by
  induction headers with
  | nil => exact ⟨[], rfl, rfl⟩
  | cons it headers ih =>
    obtain ⟨f, hentry, htext⟩ := (h it (by simp)).exists_field
    obtain ⟨fields, hentries, hprint⟩ := ih fun it hit => h it (by simp [hit])
    refine ⟨f :: fields, by rw [List.map_cons, List.map_cons, hentry, hentries], ?_⟩
    rw [redhttpHeadersPrint, List.flatMap_cons, ← redhttpHeadersPrint, ← hprint, ← htext]
    rfl

/-- Headers that are printed on field lines stay on them. -/
lemma onOneLine_of_fields {headers : List Header} {fields : List FieldLine}
    (h : fields.map FieldLine.entry = headers.map headerEntry) : ∀ it ∈ headers, OnOneLine it := by
  intro it hit
  obtain ⟨f, -, hf⟩ := List.mem_map.mp (h ▸ List.mem_map_of_mem (f := headerEntry) hit)
  obtain ⟨hname, hvalue⟩ : f.name = it.key.bytes ∧ f.value = (headerEntry it).2 := Prod.mk.inj hf
  refine ⟨⟨hname ▸ f.name_ne, hname ▸ f.name_line⟩, fun v hv => ?_⟩
  have hprinted : (headerEntry it).2 = v.bytes := by rw [headerEntry, hv, Option.elim_some]
  intro c hc
  exact f.value_line c (by rwa [hvalue, hprinted])

lemma statusLineText_eq (response : Response) : statusLineText response =
    statusLine response.status.code (bytesOf response.status.message) ++ crlf := by
  rw [statusLineText]
  cases response.status <;> rfl

lemma lineByte_message (status : Status) : ∀ c ∈ bytesOf status.message, LineByte c := by
  cases status <;> exact forall_mem_of_all (by decide)

lemma bytes_decimalInt (n : ℕ) : (CString.ofBytes (decimalInt n)).bytes = decimal n := by
  have hdecimal : decimalInt n = decimal n := rfl
  rw [hdecimal, CString.bytes_ofBytes, List.takeWhile_eq_self_iff]
  intro c hc
  have hdigit := isdigit_of_mem_decimal hc
  simp only [bne_iff_ne, ne_eq]
  rintro rfl
  exact absurd hdigit (by decide)

/-- The Content-Length fields of a message are the Content-Length headers. -/
lemma contentLengths_of_entries {m : HttpMessage} {headers : List Header}
    (h : m.fields.map FieldLine.entry = headers.map headerEntry) :
    m.contentLengths = (contentLengths headers).map fun it => (headerEntry it).2 := by
  have hname : foldKey HeaderName.contentLength.1 = bytesOf "content-length" := by decide
  have hsame : ∀ it : Header, sameKey HeaderName.contentLength.1 it.key =
      decide ((headerEntry it).1.map tolower = bytesOf "content-length") := by
    intro it
    rw [Bool.eq_iff_iff, sameKey_iff, hname, decide_eq_true_iff, foldKey]
    exact eq_comm
  rw [HttpMessage.contentLengths, h, contentLengths, List.filter_map, List.map_map]
  simp only [hsame]
  rfl

/-- The head of a response and a body are a message exactly when no header breaks its line. -/
theorem framed_iff (hlengths : contentLengths sent.headers =
      length.elim [] fun n => [lengthHeader n]) :
    Framed (headText sent ++ body) sent body length ↔ ∀ it ∈ sent.headers, OnOneLine it := by
  constructor
  · rintro ⟨m, -, -, -, hfields, -⟩
    exact onOneLine_of_fields hfields
  · intro h
    obtain ⟨fields, hentries, hprint⟩ := exists_fields h
    refine ⟨⟨sent.status.code, bytesOf sent.status.message, fields, body,
      sent.status.code_range, lineByte_message sent.status⟩, ?_, rfl, rfl, hentries, rfl, ?_⟩
    · rw [headText, statusLineText_eq, HttpMessage.bytes, hprint]
      rfl
    · rw [contentLengths_of_entries hentries, hlengths]
      cases length with
      | none => rfl
      | some n => exact congrArg (fun s => [s]) (bytes_decimalInt n)

/-- No message is empty. -/
lemma not_framed_nil : ¬ Framed [] sent body length := by
  rintro ⟨m, hbytes, -⟩
  have hempty := congrArg List.length hbytes
  simp [HttpMessage.bytes, crlf] at hempty

/-- An added header does not matter if it stays on its line. -/
lemma onOneLine_addHeader_iff {key : HeaderName} (hkey : PlainKey key.1) {value : CString}
    (hvalue : SingleLine value) :
    (∀ it ∈ (redhttpResponseAddHeader response key (some value)).headers, OnOneLine it) ↔
      ∀ it ∈ response.headers, OnOneLine it := by
  have hadded : OnOneLine ⟨key.1, storedValue (some value)⟩ := by
    refine ⟨hkey, fun v hv => ?_⟩
    have hstored : storedValue (some value) = some v := hv
    rw [storedValue, Option.filter_eq_some_iff, Option.some.injEq] at hstored
    exact hstored.1 ▸ hvalue
  rw [redhttpResponseAddHeader, List.forall_mem_append, List.forall_mem_singleton]
  exact and_iff_left hadded

/-- What is added for sending stays on its line, if the signature does. -/
lemma onOneLine_addSendHeaders_iff {now : Option Tm} {r : Request}
    (hsignature : ∀ signature ∈ r.serverSignature, SingleLine signature) :
    (∀ it ∈ (addSendHeaders now r response).headers, OnOneLine it) ↔
      ∀ it ∈ response.headers, OnOneLine it := by
  have hlength := fun n : ℤ => (plainValue_decimalInt n).text
  have hdate := fun tm : Tm => (plainValue_rfc1123 tm).text
  have hclose : SingleLine (CString.lit "Close") := by decide
  have hkeys : PlainKey HeaderName.contentLength.1 ∧ PlainKey HeaderName.date.1 ∧
      PlainKey HeaderName.connection.1 ∧ PlainKey HeaderName.server.1 := by decide
  obtain ⟨hkeyLength, hkeyDate, hkeyConnection, hkeyServer⟩ := hkeys
  have hmeasured : (∀ it ∈ (if response.contentLength ≥ 0 then
      redhttpResponseAddHeader response HeaderName.contentLength
        (some (CString.ofBytes (decimalInt response.contentLength)))
      else response).headers, OnOneLine it) ↔ ∀ it ∈ response.headers, OnOneLine it := by
    split
    · exact onOneLine_addHeader_iff hkeyLength (hlength _)
    · exact Iff.rfl
  rw [← hmeasured]
  unfold addSendHeaders
  cases hsig : r.serverSignature with
  | none =>
    cases now with
    | none => exact onOneLine_addHeader_iff hkeyConnection hclose
    | some tm =>
      exact (onOneLine_addHeader_iff hkeyConnection hclose).trans
        (onOneLine_addHeader_iff hkeyDate (hdate tm))
  | some signature =>
    have hserver := hsignature signature hsig
    cases now with
    | none =>
      exact (onOneLine_addHeader_iff hkeyServer hserver).trans
        (onOneLine_addHeader_iff hkeyConnection hclose)
    | some tm =>
      exact (onOneLine_addHeader_iff hkeyServer hserver).trans
        ((onOneLine_addHeader_iff hkeyConnection hclose).trans
          (onOneLine_addHeader_iff hkeyDate (hdate tm)))

end Message

/-! ### Delivery -/

/-- The bytes that have been read for a request, of those that its client sends. -/
def bytesRead (portions : List (Portion UInt8)) (r : Request) : ℕ :=
  (portionBytes portions).length - r.socket.input.length

/-- What the client gets of an answer that is written behind all that has been read: the request
is read and the answer is written with one stream, `fdopen(socket, "r+")`. -/
def delivered (portions : List (Portion UInt8)) (r : Request) : List UInt8 :=
  (((Stream.opened portions).skip (bytesRead portions r)).put r.socket.output).written

/-- Nothing that the client has sent waits in the stream. -/
def NothingWaits (portions : List (Portion UInt8)) (r : Request) : Prop :=
  Stream.WholePortions portions (bytesRead portions r)

lemma delivered_of_nothingWaits {portions : List (Portion UInt8)} {r : Request}
    (h : NothingWaits portions r) : delivered portions r = r.socket.output :=
  (Stream.put_skip_written (Nat.sub_le _ _)).1 h

lemma delivered_of_waiting {portions : List (Portion UInt8)} {r : Request}
    (h : ¬ NothingWaits portions r) : delivered portions r = [] :=
  (Stream.put_skip_written (Nat.sub_le _ _)).2 h

/-- When all has been read, nothing waits. -/
lemma nothingWaits_of_read (portions : List (Portion UInt8)) {r : Request}
    (h : r.socket.input = []) : NothingWaits portions r :=
  ⟨portions.length, by rw [bytesRead, h, List.take_length, List.length_nil, Nat.sub_zero]⟩

/-- Sending changes nothing about what is read. -/
lemma nothingWaits_congr {portions : List (Portion UInt8)} {r r' : Request}
    (h : r'.socket.input = r.socket.input) : NothingWaits portions r' ↔ NothingWaits portions r := by
  rw [NothingWaits, NothingWaits, bytesRead, bytesRead, h]

end RedStore.RedHttp
