/-
`pages.c`: the HTML pages and the pages with a message.

A page under construction is the response it is for and what has been written to its
stream so far.  Memory for a page is taken to be available.
-/
import RedStore.Service.Utils

namespace RedStore.Service
open CLib RedHttp

/-- `redstore_page_t`, with its response. -/
structure Page where
  response : Response
  buffer : List UInt8

/-- `redstore_page_append_string`. -/
def Page.appendString (page : Page) (str : String) : Page :=
  { page with buffer := page.buffer ++ bytesOf str }

/-- `redstore_page_append_strings`, for a string that is not a literal. -/
def Page.appendBytes (page : Page) (str : List UInt8) : Page :=
  { page with buffer := page.buffer ++ str }

/-- `redstore_page_append_decimal`. -/
def Page.appendDecimal (page : Page) (decimal : ℤ) : Page :=
  { page with buffer := page.buffer ++ decimalInt decimal }

/-- `redstore_page_new`. -/
def redstorePageNew (code : Status) (title : List UInt8) : Page :=
  let page : Page := ⟨redhttpResponseNewWithType code (CString.lit "text/html"), []⟩
  (((((((((page.appendString "<?xml version=\"1.0\" encoding=\"utf-8\"?>\n").appendString
    "<!DOCTYPE html PUBLIC \"-//W3C//DTD XHTML 1.0 Strict//EN\"\n").appendString
    "          \"http://www.w3.org/TR/xhtml1/DTD/xhtml1-strict.dtd\">\n").appendString
    "<html xmlns=\"http://www.w3.org/1999/xhtml\">\n").appendString
    "<head>\n").appendString
    "  <meta charset=\"utf-8\" />\n").appendBytes
    (bytesOf "  <title>RedStore - " ++ title ++ bytesOf "</title>\n")).appendString
    "</head>\n").appendString
    "<body>\n").appendBytes
    (bytesOf "<h1>" ++ title ++ bytesOf "</h1>\n")

@[simp] lemma appendString_response (page : Page) (str : String) :
    (page.appendString str).response = page.response := rfl

@[simp] lemma appendBytes_response (page : Page) (str : List UInt8) :
    (page.appendBytes str).response = page.response := rfl

@[simp] lemma redstorePageNew_response (code : Status) (title : List UInt8) :
    (redstorePageNew code title).response =
      redhttpResponseNewWithType code (CString.lit "text/html") := rfl

section World

variable {T R σ : Type} (w : World T R σ)

/-- `redstore_page_append_escaped` with 0 for the quote. -/
def Page.appendEscaped (page : Page) (str : List UInt8) : Page :=
  { page with buffer := page.buffer ++ w.xmlEscape str 0 }

/-- The foot of a page. -/
def pageFoot : List UInt8 :=
  bytesOf "<hr /><address>" ++ bytesOf "RedStore/0.5.5" ++
    bytesOf " librdf/" ++ w.librdfVersion.bytes ++ bytesOf " raptor/" ++ w.raptorVersion.bytes ++
    bytesOf " rasqal/" ++ w.rasqalVersion.bytes ++ bytesOf "</address>\n" ++
    bytesOf "</body></html>\n"

lemma append_pageFoot_ne_nil (buffer : List UInt8) : buffer ++ pageFoot w ≠ [] := by
  simp [pageFoot, bytesOf]

/-- `redstore_page_end`. -/
def redstorePageEnd (page : Page) : Response :=
  redhttpResponseSetContent page.response (page.buffer ++ pageFoot w)
    (append_pageFoot_ne_nil w page.buffer)

/-! ### Pages with a message -/

/-- The formats that a message page can be given in. -/
def supportedFormats : CString := CString.lit "text/plain,text/html,application/xhtml+xml"

/-- What `snprintf` leaves in a buffer for `n` characters, when it has a text to put there;
what is behind the text is what `malloc` found. -/
def bufferText (n : ℕ) (text : List UInt8) : List UInt8 :=
  (text ++ 0 :: (List.range n).map w.heap.junk).take n

lemma bufferText_ne_nil {n : ℕ} (h : 0 < n) (text : List UInt8) : bufferText w n text ≠ [] := by
  obtain ⟨n, rfl⟩ := Nat.exists_eq_succ_of_ne_zero h.ne'
  cases text <;> simp [bufferText]

/-- The HTML branch of `redstore_page_new_with_message`. -/
def htmlMessagePage (code : Status) (message : List UInt8) : ServiceM σ Response := do
  let page := (((redstorePageNew code (bytesOf code.message)).appendString
    "<p>").appendEscaped w message).appendString "</p>\n"
  match ← inspectErrorBuffer with
  | none => pure (redstorePageEnd w page)
  | some buffer =>
    let page := page.appendString "<pre>"
    match w.stringbufferAsString buffer with
    -- `strlen(str)` in `redstore_page_append_escaped`
    | none => throw .nullPointer
    | some str => pure (redstorePageEnd w ((page.appendEscaped w str.bytes).appendString "</pre>"))

/-- The text branch of `redstore_page_new_with_message`. -/
def textMessagePage (code : Status) (message : List UInt8) : ServiceM σ Response := do
  let buffer ← inspectErrorBuffer
  let length := message.length + 1 + (buffer.getD []).length
  let errorStr := buffer.elim [] fun buffer =>
    (w.stringbufferAsString buffer).elim (bytesOf "(null)") CString.bytes
  pure (redhttpResponseSetContent (redhttpResponseNewWithType code (CString.lit "text/plain"))
    (bufferText w length (message ++ bytesOf "\n" ++ errorStr))
    (bufferText_ne_nil w (by omega) _))

/-- `redstore_page_new_with_message`, for a message that its format and arguments make. -/
def redstorePageNewWithMessage (code : Status) (message : List UInt8) :
    ServiceM σ Response := do
  let formatStr ← ofExcept (redstoreNegotiateString (← get).request supportedFormats
    (CString.lit "text/plain"))
  if ← ofExcept (redstoreIsHtmlFormat formatStr) then htmlMessagePage w code message
  else textMessagePage w code message

/-- The responses of message pages with a status. -/
inductive MessageResponse (w : World T R σ) (code : Status) : Response → Prop where
  | html {page : Page}
    (h : page.response = redhttpResponseNewWithType code (CString.lit "text/html")) :
    MessageResponse w code (redstorePageEnd w page)
  | text {content : List UInt8} (h : content ≠ []) : MessageResponse w code
    (redhttpResponseSetContent (redhttpResponseNewWithType code (CString.lit "text/plain"))
      content h)

lemma messageResponse_of_html {w : World T R σ} {code : Status} {message : List UInt8}
    {c c' : Conn (App σ)} {response : Response}
    (h : htmlMessagePage w code message c = .ok response c') :
    MessageResponse w code response ∧ c' = looked c := by
  simp only [htmlMessagePage, bind_apply, inspect_apply] at h
  cases hbuffer : c.app.errorBuffer with
  | none =>
    simp only [hbuffer, pure_apply, EStateM.Result.ok.injEq] at h
    exact ⟨h.1 ▸ .html rfl, h.2.symm⟩
  | some buffer =>
    simp only [hbuffer] at h
    cases hstr : w.stringbufferAsString buffer with
    | none => simp [hstr] at h
    | some str =>
      simp only [hstr, pure_apply, EStateM.Result.ok.injEq] at h
      exact ⟨h.1 ▸ .html rfl, h.2.symm⟩

lemma messageResponse_of_text {w : World T R σ} {code : Status} {message : List UInt8}
    {c c' : Conn (App σ)} {response : Response}
    (h : textMessagePage w code message c = .ok response c') :
    MessageResponse w code response ∧ c' = looked c := by
  simp only [textMessagePage, bind_apply, inspect_apply, pure_apply,
    EStateM.Result.ok.injEq] at h
  exact ⟨h.1 ▸ .text _, h.2.symm⟩

/-- Giving a message page only takes a look at the error buffer. -/
lemma messageResponse_of_ok {w : World T R σ} {code : Status} {message : List UInt8}
    {c c' : Conn (App σ)} {response : Response}
    (h : redstorePageNewWithMessage w code message c = .ok response c') :
    MessageResponse w code response ∧ c' = looked c := by
  simp only [redstorePageNewWithMessage, bind_apply, get_apply] at h
  cases hformat : redstoreNegotiateString c.request supportedFormats (CString.lit "text/plain") with
  | error e => simp [hformat] at h
  | ok format =>
    simp only [hformat, ofExcept_ok] at h
    cases his : redstoreIsHtmlFormat format with
    | error e => simp [his] at h
    | ok b =>
      simp only [his, ofExcept_ok] at h
      cases b with
      | true => exact messageResponse_of_html h
      | false => exact messageResponse_of_text h

/-- A message page that is given has the status asked for, and giving it only takes a look at
the error buffer. -/
lemma pageNewWithMessage_of_ok {w : World T R σ} {code : Status} {message : List UInt8}
    {c c' : Conn (App σ)} {response : Response}
    (h : redstorePageNewWithMessage w code message c = .ok response c') :
    response.status = code ∧ c' = looked c := by
  obtain ⟨hresponse, hc⟩ := messageResponse_of_ok h
  refine ⟨?_, hc⟩
  cases hresponse with
  | html hpage => exact congrArg Response.status hpage
  | text => rfl

end World

end RedStore.Service
