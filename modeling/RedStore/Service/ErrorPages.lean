/-
When the message pages and the list of graphs can be given.

Both negotiate a format first, and both hand the result to `strcmp`.  There is no result
when an Accept header names neither one of the three supported types nor `*/*`; then the
program dereferences NULL, on the way to the very page that would say so.  Besides, an HTML
page needs the string of an error buffer that is there, and the HTML list of graphs escapes
the URIs of foreign graphs, which reads outside a table from `0x80` on.
-/
import RedStore.RedHttp.NegotiateChoose
import RedStore.Service.Graphs
import RedStore.Service.MemoryWorld

namespace RedStore.Service
open CLib RedHttp

/-! ### The negotiation -/

/-- The types of an Accept header that meet a supported one. -/
def acceptableTypes : List CString :=
  [CString.lit "text/plain", CString.lit "text/html", CString.lit "application/xhtml+xml",
    CString.lit "*/*"]

/-- Every item of the Accept header names something. -/
def ItemsNamed (r : Request) : Prop :=
  ∀ accept, r.getHeader (CString.lit "Accept") = some accept →
    ∀ item ∈ negotiateItems accept.bytes, ItemNamed item

/-- The request has a format argument with a value, or no Accept header to negotiate with,
or one with an item of a type that can be served. -/
def Negotiable (r : Request) : Prop :=
  (r.getArgument (CString.lit "format")).isSome = true ∨
    ∀ accept, acceptToNegotiate r = some accept →
      ∃ item ∈ negotiateItems accept.bytes, trimmedType item ∈ acceptableTypes

/-- What `redstore_negotiate_string` finds for a message page or the list of graphs. -/
def messageFormat (r : Request) : Except Fault (Option CString) :=
  redstoreNegotiateString r supportedFormats (CString.lit "text/plain")

instance (item : List UInt8) : Decidable (ItemNamed item) :=
  inferInstanceAs (Decidable (∃ c ∈ itemType item, isspace c = false))

lemma parse_supportedFormats :
    ∃ list, redhttpNegotiateParse (some supportedFormats) = .ok list ∧
      (list.map Negotiate.type).Perm
        [CString.lit "text/plain", CString.lit "text/html", CString.lit "application/xhtml+xml"] := by
  have hnamed : ∀ item ∈ negotiateItems supportedFormats.bytes, ItemNamed item := by
    decide +kernel
  obtain ⟨list, hlist, hperm⟩ := parseItems_types supportedFormats.bytes [] hnamed
  have htypes : (negotiateItems supportedFormats.bytes).map trimmedType =
      [CString.lit "text/plain", CString.lit "text/html", CString.lit "application/xhtml+xml"] := by
    decide +kernel
  have hne : supportedFormats.bytes ≠ [] := by decide
  refine ⟨list, ?_, by simpa [htypes] using hperm⟩
  rw [redhttpNegotiateParse]
  simp only [hne, if_false]
  exact hlist

/-- A supported type meets the type of an item exactly when that is an acceptable one. -/
lemma exists_meets_iff {supported : List Negotiate}
    (h : (supported.map Negotiate.type).Perm
      [CString.lit "text/plain", CString.lit "text/html", CString.lit "application/xhtml+xml"])
    (type : CString) :
    (∃ s ∈ supported, redhttpNegotiateCompareTypes s.type type = true) ↔
      type ∈ acceptableTypes := by
  have hmem : ∀ t, (∃ s ∈ supported, s.type = t) ↔ t ∈
      [CString.lit "text/plain", CString.lit "text/html", CString.lit "application/xhtml+xml"] := by
    intro t
    rw [← h.mem_iff, List.mem_map]
  simp only [redhttpNegotiateCompareTypes]
  by_cases hall : type = CString.lit "*/*"
  · obtain ⟨s, hs, -⟩ := (hmem (CString.lit "text/plain")).mpr (by simp)
    simp only [hall, if_true, and_true]
    exact ⟨fun _ => by simp [acceptableTypes], fun _ => ⟨s, hs⟩⟩
  · simp only [hall, if_false, beq_iff_eq, hmem, acceptableTypes, List.mem_cons, List.not_mem_nil,
      or_false]

/-- A format is found exactly for the negotiable requests. -/
lemma messageFormat_spec {r : Request} (h : ItemsNamed r) :
    ∃ format, messageFormat r = .ok format ∧ (format ≠ none ↔ Negotiable r) := by
  simp only [messageFormat, redstoreNegotiateString, Negotiable]
  cases hformat : r.getArgument (CString.lit "format") with
  | some format => exact ⟨some format, by simp, by simp⟩
  | none =>
    cases haccept : acceptToNegotiate r with
    | none => exact ⟨some (CString.lit "text/plain"), by simp, by simp⟩
    | some accept =>
      obtain ⟨hheader, hne⟩ := Option.filter_eq_some_iff.mp haccept
      simp only [decide_eq_true_eq] at hne
      obtain ⟨client, hclient, hperm⟩ := parseItems_types accept.bytes [] (h accept hheader)
      obtain ⟨supported, hsupported, htypes⟩ := parse_supportedFormats
      have hparse : redhttpNegotiateParse (some accept) = .ok client := by
        rw [redhttpNegotiateParse]
        simp only [hne.1, if_false]
        exact hclient
      have hmem : ∀ t, (∃ c ∈ client, c.type = t) ↔
          ∃ item ∈ negotiateItems accept.bytes, trimmedType item = t := by
        intro t
        rw [← List.mem_map, hperm.mem_iff]
        simp
      refine ⟨redhttpNegotiateChoose supported client, ?_, ?_⟩
      · simp only [hparse, hsupported, bind, Except.bind]
      · rw [ne_eq, redhttpNegotiateChoose_eq_none_iff]
        push Not
        simp only [Option.isSome_none, Bool.false_eq_true, false_or, Option.some.injEq,
          forall_eq']
        constructor
        · rintro ⟨s, hs, c, hc, hmeets⟩
          obtain ⟨item, hitem, htype⟩ := (hmem c.type).mp ⟨c, hc, rfl⟩
          refine ⟨item, hitem, ?_⟩
          rw [htype, ← exists_meets_iff htypes]
          exact ⟨s, hs, by simpa using hmeets⟩
        · rintro ⟨item, hitem, hacceptable⟩
          obtain ⟨c, hc, htype⟩ := (hmem (trimmedType item)).mpr ⟨item, hitem, rfl⟩
          obtain ⟨s, hs, hmeets⟩ := (exists_meets_iff htypes _).mpr hacceptable
          exact ⟨s, hs, c, hc, by simpa [htype] using hmeets⟩

/-! ### Message pages -/

section Pages

variable {T R σ : Type} {w : World T R σ} {c : Conn (App σ)} {code : Status}
  {message : List UInt8}

/-- The error buffer, if it is there, has a string. -/
def BufferReadable (w : World T R σ) (app : App σ) : Prop :=
  ∀ buffer, app.errorBuffer = some buffer → w.stringbufferAsString buffer ≠ none

/-- The message page by the format negotiated. -/
lemma pageNewWithMessage_eq {format : Option CString}
    (h : messageFormat c.request = .ok format) :
    redstorePageNewWithMessage w code message c =
      match format with
      | none => .error .nullPointer c
      | some f => if f ∈ htmlFormats then htmlMessagePage w code message c
          else textMessagePage w code message c := by
  rw [messageFormat] at h
  simp only [redstorePageNewWithMessage, bind_apply, get_apply, h, ofExcept_ok,
    redstoreIsHtmlFormat]
  cases format with
  | none => rfl
  | some f =>
    simp only [isOneOf, ofExcept_ok, decide_eq_true_eq]
    split <;> rfl

lemma textMessagePage_ok :
    ∃ response, textMessagePage w code message c = .ok response (looked c) ∧
      response.status = code := by
  simp only [textMessagePage, bind_apply, inspect_apply, pure_apply]
  exact ⟨_, rfl, rfl⟩

lemma htmlMessagePage_ok (h : BufferReadable w c.app) :
    ∃ response, htmlMessagePage w code message c = .ok response (looked c) ∧
      response.status = code := by
  simp only [htmlMessagePage, bind_apply, inspect_apply]
  cases hb : c.app.errorBuffer with
  | none => exact ⟨_, rfl, rfl⟩
  | some buffer =>
    obtain ⟨str, hstr⟩ := Option.ne_none_iff_exists'.mp (h buffer hb)
    simp only [hstr]
    exact ⟨_, rfl, rfl⟩

lemma htmlMessagePage_error (h : ¬ BufferReadable w c.app) :
    htmlMessagePage w code message c = .error .nullPointer (looked c) := by
  rw [BufferReadable] at h
  push Not at h
  obtain ⟨buffer, hb, hstr⟩ := h
  simp only [htmlMessagePage, bind_apply, inspect_apply, hb, hstr, throw_apply]

/-- A format is found for the message pages of a request. -/
def CanAnswer (r : Request) : Prop := ∃ f, messageFormat r = .ok (some f)

/-- Only the headers and the arguments matter for it. -/
lemma messageFormat_congr {r r' : Request} (hheaders : r.headers = r'.headers)
    (harguments : r.arguments = r'.arguments) : messageFormat r = messageFormat r' := by
  simp only [messageFormat, redstoreNegotiateString, acceptToNegotiate, Request.getHeader,
    Request.getArgument, hheaders, harguments]

lemma canAnswer_congr {r r' : Request} (hheaders : r.headers = r'.headers)
    (harguments : r.arguments = r'.arguments) : CanAnswer r ↔ CanAnswer r' := by
  rw [CanAnswer, CanAnswer, messageFormat_congr hheaders harguments]

/-- A message page can be given in the format found, if the error buffer has a string where
that is needed. -/
lemma pageNewWithMessage_ok (h : CanAnswer c.request)
    (hbuffer : (∃ f ∈ htmlFormats, messageFormat c.request = .ok (some f)) →
      BufferReadable w c.app) :
    ∃ response, redstorePageNewWithMessage w code message c = .ok response (looked c) ∧
      response.status = code := by
  obtain ⟨f, hformat⟩ := h
  rw [pageNewWithMessage_eq hformat]
  by_cases hf : f ∈ htmlFormats
  · simp only [hf, if_true]
    exact htmlMessagePage_ok (hbuffer ⟨f, hf, hformat⟩)
  · simp only [hf, if_false]
    exact textMessagePage_ok

lemma canAnswer_of_ok {response : Response} {c' : Conn (App σ)}
    (h : redstorePageNewWithMessage w code message c = .ok response c') : CanAnswer c.request := by
  cases hformat : messageFormat c.request with
  | error e =>
    rw [messageFormat] at hformat
    simp [redstorePageNewWithMessage, bind_apply, hformat] at h
  | ok format =>
    cases format with
    | some f => exact ⟨f, hformat⟩
    | none =>
      rw [pageNewWithMessage_eq hformat] at h
      cases h

/-- A page that is given has the status and takes a look at the error buffer; without a buffer
a format is all that it needs. -/
lemma pageNewWithMessage_ok_iff (hbuffer : c.app.errorBuffer = none)
    {c' : Conn (App σ)} :
    (∃ response, redstorePageNewWithMessage w code message c = .ok response c') ↔
      CanAnswer c.request ∧ c' = looked c := by
  constructor
  · rintro ⟨response, h⟩
    exact ⟨canAnswer_of_ok h, (pageNewWithMessage_of_ok h).2⟩
  · rintro ⟨h, rfl⟩
    have hreadable : BufferReadable w c.app := fun buffer hb => by
      rw [hbuffer] at hb
      cases hb
    obtain ⟨response, hpage, -⟩ := pageNewWithMessage_ok h fun _ => hreadable
    exact ⟨response, hpage⟩

/-- Every status can be answered, with every message. -/
def PagesAnswered (w : World T R σ) (c : Conn (App σ)) : Prop :=
  ∀ code message, ∃ response c',
    redstorePageNewWithMessage w code message c = .ok response c' ∧ response.status = code

/-- A message page needs a format and, in HTML, a string for the error buffer. -/
theorem pagesAnswered_iff (h : ItemsNamed c.request) :
    PagesAnswered w c ↔ Negotiable c.request ∧
      ((∃ f ∈ htmlFormats, messageFormat c.request = .ok (some f)) → BufferReadable w c.app) := by
  obtain ⟨format, hformat, hnegotiable⟩ := messageFormat_spec h
  rw [← hnegotiable]
  constructor
  · intro hpages
    have hpage := hpages .ok []
    rw [pageNewWithMessage_eq hformat] at hpage
    cases format with
    | none => simp at hpage
    | some f =>
      refine ⟨by simp, ?_⟩
      rintro ⟨f', hf', heq⟩
      obtain rfl : f = f' := by simpa using hformat.symm.trans heq
      by_contra hbuffer
      simp only [hf', if_true, htmlMessagePage_error hbuffer] at hpage
      simp at hpage
  · rintro ⟨hsome, hbuffer⟩ code message
    obtain ⟨f, rfl⟩ := Option.ne_none_iff_exists'.mp hsome
    obtain ⟨response, hpage, hstatus⟩ : ∃ response,
        redstorePageNewWithMessage w code message c = .ok response (looked c) ∧
          response.status = code :=
      pageNewWithMessage_ok ⟨f, hformat⟩ hbuffer
    exact ⟨response, looked c, hpage, hstatus⟩

end Pages

/-! ### The list of graphs -/

section Index

variable {T R σ : Type} {w : World T R σ} {c : Conn (App σ)}

/-- The URI that `server_root_url` finds. -/
def rootUrlOf (r : Request) : CString :=
  CString.lit "http://" ++ r.host.getD r.computedHost ++ CString.lit "/"

/-- The URIs that the list of graphs goes through. -/
def listedUris : Stream Node → List CString
  | [] => []
  | .log _ :: iterator => listedUris iterator
  | .object none :: _ => []
  | .object (some node) :: iterator =>
    match node.getUri with
    | none => []
    | some uri => uri :: listedUris iterator

/-- The URIs of graphs of other servers are in ASCII. -/
def ForeignAscii (rootUrl : CString) (iterator : Stream Node) : Prop :=
  ∀ uri ∈ listedUris iterator, strstr uri.bytes rootUrl.bytes = true ∨ ∀ b ∈ uri.bytes, b < 128

lemma serverRootUrl_apply :
    ∃ c', serverRootUrl c = .ok (rootUrlOf c.request) c' := by
  simp only [serverRootUrl, bind_apply, onRequest, redhttpRequestGetHost, get_apply, rootUrlOf]
  cases c.request.host with
  | none => exact ⟨_, rfl⟩
  | some host => exact ⟨_, rfl⟩

lemma appendGraphItem_ok_iff {rootUrl : CString} (page : Page) {uri : CString} :
    (∃ page', appendGraphItem w rootUrl page uri = .ok page') ↔
      strstr uri.bytes rootUrl.bytes = true ∨ ∀ b ∈ uri.bytes, b < 128 := by
  rw [appendGraphItem, ← redhttpUrlEscape_ok_iff]
  by_cases hroot : strstr uri.bytes rootUrl.bytes = true
  · simp [hroot]
  · simp only [hroot, Bool.false_eq_true, if_false, false_or, bind, Except.bind]
    cases redhttpUrlEscape uri.bytes <;> simp

lemma appendGraphItems_response {rootUrl : CString} {iterator : Stream Node} {page page' : Page}
    {c' : Conn (App σ)} (h : appendGraphItems w rootUrl iterator page c = .ok page' c') :
    page'.response = page.response := by
  induction iterator generalizing page c with
  | nil =>
    cases h
    rfl
  | cons event iterator ih =>
    match event with
    | .log m =>
      simp only [appendGraphItems, bind_apply, redlandLogHandler_apply] at h
      exact ih h
    | .object none =>
      cases h
      rfl
    | .object (some node) =>
      cases huri : node.getUri with
      | none =>
        simp only [appendGraphItems, huri, pure_apply, EStateM.Result.ok.injEq] at h
        rw [h.1]
      | some uri =>
        simp only [appendGraphItems, huri, bind_apply] at h
        cases hitem : appendGraphItem w rootUrl page uri with
        | error e => simp [hitem] at h
        | ok page₁ =>
          simp only [hitem, ofExcept_ok] at h
          rw [ih h, appendGraphItem_response hitem]

/-- The list is written exactly when the foreign URIs on it are in ASCII. -/
lemma appendGraphItems_ok_iff {rootUrl : CString} {iterator : Stream Node} (page : Page) :
    (∃ page' c', appendGraphItems w rootUrl iterator page c = .ok page' c') ↔
      ForeignAscii rootUrl iterator := by
  induction iterator generalizing page c with
  | nil => simp [appendGraphItems, ForeignAscii, listedUris]
  | cons event iterator ih =>
    match event with
    | .log m =>
      simp only [appendGraphItems, bind_apply, redlandLogHandler_apply]
      exact ih page
    | .object none => simp [appendGraphItems, ForeignAscii, listedUris]
    | .object (some node) =>
      cases huri : node.getUri with
      | none => simp [appendGraphItems, ForeignAscii, listedUris, huri]
      | some uri =>
        have hforeign : ForeignAscii rootUrl (.object (some node) :: iterator) ↔
            (strstr uri.bytes rootUrl.bytes = true ∨ ∀ b ∈ uri.bytes, b < 128) ∧
              ForeignAscii rootUrl iterator := by
          simp only [ForeignAscii, listedUris, huri, List.forall_mem_cons]
        rw [hforeign, ← appendGraphItem_ok_iff (w := w) page]
        simp only [appendGraphItems, huri, bind_apply]
        cases hitem : appendGraphItem w rootUrl page uri with
        | error e => simp
        | ok page₁ =>
          simp only [ofExcept_ok, Except.ok.injEq, exists_eq', true_and]
          exact ih page₁

lemma logRest_ok (iterator : Stream Node) : ∃ c', logRest iterator c = .ok () c' := by
  induction iterator generalizing c with
  | nil => exact ⟨c, rfl⟩
  | cons event iterator ih =>
    match event with
    | .log m =>
      simp only [logRest, bind_apply, redlandLogHandler_apply]
      exact ih
    | .object o => exact ⟨c, rfl⟩

lemma listedUris_of_not_hasObject {iterator : Stream Node} (h : hasObject iterator = false) :
    listedUris iterator = [] := by
  induction iterator with
  | nil => rfl
  | cons event iterator ih =>
    match event with
    | .log m => exact ih (by simpa [hasObject] using h)
    | .object o => simp [hasObject] at h

/-- A page that is finished keeps the response it is for. -/
lemma redstorePageEnd_of_response {page : Page}
    (h : page.response = redhttpResponseNewWithType .ok (CString.lit "text/html")) :
    (redstorePageEnd w page).status = .ok ∧
      redhttpHeadersGet (redstorePageEnd w page).headers (CString.lit "Content-Type") =
        some (CString.lit "text/html") := by
  have hheaders : (redstorePageEnd w page).headers =
      [⟨CString.lit "Content-Type", some (CString.lit "text/html")⟩] :=
    congrArg Response.headers h
  refine ⟨congrArg Response.status h, ?_⟩
  rw [hheaders]
  decide

lemma handleHtmlGraphIndex_ok_iff {iterator : Stream Node} :
    (∃ response c', handleHtmlGraphIndex w iterator c = .ok response c' ∧
        response.status = .ok ∧
        redhttpHeadersGet response.headers (CString.lit "Content-Type") =
          some (CString.lit "text/html")) ↔
      ForeignAscii (rootUrlOf c.request) iterator := by
  obtain ⟨c₁, hroot⟩ := serverRootUrl_apply (c := c)
  simp only [handleHtmlGraphIndex, bind_apply, hroot]
  cases hobject : hasObject iterator with
  | true =>
    simp only [if_true, bind_apply]
    rw [← appendGraphItems_ok_iff (w := w) (c := c₁)
      ((redstorePageNew .ok (bytesOf "Named Graphs")).appendString "<ul>\n")]
    constructor
    · rintro ⟨response, c', hindex, -⟩
      cases hitems : appendGraphItems w (rootUrlOf c.request) iterator
          ((redstorePageNew .ok (bytesOf "Named Graphs")).appendString "<ul>\n") c₁ with
      | error e c₂ => simp [hitems] at hindex
      | ok page' c₂ => exact ⟨page', c₂, rfl⟩
    · rintro ⟨page', c', hitems⟩
      have hresponse := appendGraphItems_response hitems
      simp only [hitems, pure_apply]
      refine ⟨_, c', rfl, redstorePageEnd_of_response ?_⟩
      simp only [appendString_response, redstorePageNew_response] at hresponse ⊢
      exact hresponse
  | false =>
    obtain ⟨c', hlogs⟩ := logRest_ok (c := c₁) iterator
    simp only [Bool.false_eq_true, if_false, bind_apply, hlogs, pure_apply]
    have hforeign : ForeignAscii (rootUrlOf c.request) iterator := by
      simp [ForeignAscii, listedUris_of_not_hasObject hobject]
    simp only [hforeign, iff_true]
    refine ⟨_, c', rfl, redstorePageEnd_of_response ?_⟩
    simp only [appendString_response, redstorePageNew_response]

lemma writeGraphLines_ok (iterator : Stream Node) :
    ∃ c', writeGraphLines iterator c = .ok () c' := by
  induction iterator generalizing c with
  | nil => exact ⟨c, rfl⟩
  | cons event iterator ih =>
    match event with
    | .log m =>
      simp only [writeGraphLines, bind_apply, redlandLogHandler_apply]
      exact ih
    | .object none => exact ⟨c, rfl⟩
    | .object (some node) =>
      cases huri : node.getUri with
      | none => exact ⟨c, by simp only [writeGraphLines, huri, pure_apply]⟩
      | some uri =>
        simp only [writeGraphLines, huri, bind_apply, onRequest, fwrite, modify_apply]
        exact ih

lemma handleTextGraphIndex_ok (iterator : Stream Node) :
    ∃ response c', handleTextGraphIndex w iterator c = .ok response c' ∧
      response.status = .ok ∧
      redhttpHeadersGet response.headers (CString.lit "Content-Type") =
        some (CString.lit "text/plain") := by
  set response := redhttpResponseNewWithType .ok (CString.lit "text/plain") with hresponse
  have hsend : redhttpResponseSend w.now response c.request = _ := redhttpResponseSend_of_none rfl
  simp only [handleTextGraphIndex, bind_apply, onRequest, ← hresponse, hsend]
  obtain ⟨c', hlines⟩ := writeGraphLines_ok (σ := σ) (c := { c with
    request := c.request.write (sentHead w.now c.request response) }) iterator
  rw [hlines]
  obtain ⟨more, hmore⟩ : ∃ more, (addSendHeaders w.now c.request response).headers =
      response.headers ++ more :=
    addSendHeaders_headers
  refine ⟨_, c', rfl, ?_, ?_⟩
  · exact sentResponse_status
  · have hheaders : (sentResponse w.now c.request response).headers = response.headers ++ more :=
      hmore
    rw [hheaders]
    rfl

/-- The list of graphs by the format negotiated. -/
lemma handleGraphIndex_eq {format : Option CString} {iterator : Stream Node}
    (h : messageFormat c.request = .ok format)
    (hcontexts : (w.storageGetContexts c.app.storage).value = some iterator) :
    handleGraphIndex w c =
      let c₁ := called c (w.storageGetContexts c.app.storage)
      match format with
      | none => .error .nullPointer c₁
      | some f =>
        if f ∈ textFormats then (some <$> handleTextGraphIndex w iterator) c₁
        else if f ∈ htmlFormats then (some <$> handleHtmlGraphIndex w iterator) c₁
        else (some <$> redstorePageNewWithMessage w .notAcceptable
          (bytesOf "No acceptable format supported.")) c₁ := by
  rw [messageFormat] at h
  simp only [handleGraphIndex, bind_apply, get_apply, h, ofExcept_ok, call_apply, hcontexts,
    redstoreIsTextFormat, redstoreIsHtmlFormat]
  cases format with
  | none => rfl
  | some f =>
    by_cases htext : f ∈ textFormats
    · simp only [isOneOf, ofExcept_ok, htext, decide_true, if_true]
    · by_cases hhtml : f ∈ htmlFormats
      · simp only [isOneOf, ofExcept_ok, htext, decide_false, Bool.false_eq_true, if_false,
          bind_apply, hhtml, decide_true, if_true]
      · simp only [isOneOf, ofExcept_ok, htext, decide_false, Bool.false_eq_true, if_false,
          bind_apply, hhtml]

lemma not_html_of_text : ∀ f ∈ textFormats, f ∉ htmlFormats := by decide

/-- The answer that the list of graphs should be given in a format. -/
def IndexResponse (format : Option CString) (response : Response) : Prop :=
  if ∃ f ∈ textFormats, format = some f then
    response.status = .ok ∧ redhttpHeadersGet response.headers
      (CString.lit "Content-Type") = some (CString.lit "text/plain")
  else if ∃ f ∈ htmlFormats, format = some f then
    response.status = .ok ∧ redhttpHeadersGet response.headers
      (CString.lit "Content-Type") = some (CString.lit "text/html")
  else response.status = .notAcceptable

/-- The list of graphs, when the storage gives it, is answered in the format that was
negotiated, in text or HTML, and with 406 otherwise. -/
def IndexAnswered (w : World T R σ) (c : Conn (App σ)) : Prop :=
  ∀ iterator, (w.storageGetContexts c.app.storage).value = some iterator →
    ∃ response c', handleGraphIndex w c = .ok (some response) c' ∧
      ∀ format, messageFormat c.request = .ok format → IndexResponse format response

/-- The list of graphs needs a format and, in HTML, foreign URIs in ASCII. -/
theorem indexAnswered_iff (h : ItemsNamed c.request) {iterator : Stream Node}
    (hcontexts : (w.storageGetContexts c.app.storage).value = some iterator) :
    IndexAnswered w c ↔ Negotiable c.request ∧
      ((∃ f ∈ htmlFormats, messageFormat c.request = .ok (some f)) →
        ForeignAscii (rootUrlOf c.request) iterator) := by
  obtain ⟨format, hformat, hnegotiable⟩ := messageFormat_spec h
  have hindex : IndexAnswered w c ↔ ∃ response c',
      handleGraphIndex w c = .ok (some response) c' ∧ IndexResponse format response := by
    simp only [IndexAnswered, hcontexts, Option.some.injEq, forall_eq', hformat, Except.ok.injEq]
  rw [hindex, handleGraphIndex_eq hformat hcontexts, ← hnegotiable]
  set c₁ : Conn (App σ) :=
    called c (w.storageGetContexts c.app.storage) with hc₁
  cases format with
  | none => simp
  | some f =>
    simp only [hformat, Except.ok.injEq, Option.some.injEq, exists_eq_right', ne_eq, reduceCtorEq,
      not_false_eq_true, true_and]
    by_cases htext : f ∈ textFormats
    · have hhtml : f ∉ htmlFormats := not_html_of_text f htext
      obtain ⟨response, c', hpage, hresponse⟩ := handleTextGraphIndex_ok (w := w) (c := c₁) iterator
      simp only [htext, if_true, hhtml, false_imp_iff, iff_true]
      exact ⟨response, c', map_some_eq_ok_iff.mpr hpage,
        by simpa [IndexResponse, htext] using hresponse⟩
    · by_cases hhtml : f ∈ htmlFormats
      · simp only [htext, hhtml, if_true, if_false, true_imp_iff, map_some_eq_ok_iff, IndexResponse,
          Option.some.injEq, exists_eq_right']
        exact handleHtmlGraphIndex_ok_iff
      · obtain ⟨response, hpage, hstatus⟩ : ∃ response,
            textMessagePage w .notAcceptable (bytesOf "No acceptable format supported.") c₁ =
              .ok response (looked c₁) ∧ response.status = .notAcceptable :=
          textMessagePage_ok
        simp only [htext, hhtml, if_false, false_imp_iff, iff_true, map_some_eq_ok_iff, IndexResponse,
          Option.some.injEq, exists_eq_right']
        refine ⟨response, looked c₁, ?_, hstatus⟩
        have hpage' : redstorePageNewWithMessage w .notAcceptable
            (bytesOf "No acceptable format supported.") c₁ = _ :=
          pageNewWithMessage_eq (c := c₁) hformat
        simpa only [hhtml, if_false, hpage] using hpage'

end Index

/-! ### Both -/

section Answered

variable {T R σ : Type} {w : World T R σ} {c : Conn (App σ)}

/-- Every message page can be given and so can the list of graphs exactly when a format is
found and, for HTML, the error buffer can be read and the foreign graphs are named in
ASCII. -/
theorem pages_and_index_answered_iff (h : ItemsNamed c.request) :
    PagesAnswered w c ∧ IndexAnswered w c ↔ Negotiable c.request ∧
      ((∃ f ∈ htmlFormats, messageFormat c.request = .ok (some f)) →
        BufferReadable w c.app ∧
          ∀ iterator, (w.storageGetContexts c.app.storage).value = some iterator →
            ForeignAscii (rootUrlOf c.request) iterator) := by
  rw [pagesAnswered_iff h]
  cases hcontexts : (w.storageGetContexts c.app.storage).value with
  | none => simp [IndexAnswered, hcontexts]
  | some iterator =>
    rw [indexAnswered_iff h hcontexts]
    simp only [Option.some.injEq, forall_eq']
    rw [and_and_and_comm, and_self, ← imp_and]

lemma itemsNamed_of_header {r : Request} {accept : CString}
    (h : r.getHeader (CString.lit "Accept") = some accept)
    (hitems : ∀ item ∈ negotiateItems accept.bytes, ItemNamed item) : ItemsNamed r := by
  intro accept' haccept'
  obtain rfl : accept = accept' := Option.some.inj (h.symm.trans haccept')
  exact hitems

end Answered

/-- A service without graphs, and a request for `/graphs` with an Accept header. -/
def graphsConn (accept : CString) : Conn (App MemoryStore) where
  request := {
    headers := [⟨CString.lit "Accept", some accept⟩]
    method := some (CString.lit "GET")
    pathAndQuery := some (CString.lit "/graphs")
    path := some (CString.lit "/graphs")
    version := some (CString.lit "1.1") }
  app := emptyApp

lemma graphsConn_itemsNamed {accept : CString}
    (h : ∀ item ∈ negotiateItems accept.bytes, ItemNamed item) :
    ItemsNamed (graphsConn accept).request :=
  itemsNamed_of_header rfl h

theorem pages_and_index_answered_html :
    ItemsNamed (graphsConn (CString.lit "text/html;q=0.5")).request ∧
      PagesAnswered memoryWorld (graphsConn (CString.lit "text/html;q=0.5")) ∧
      IndexAnswered memoryWorld (graphsConn (CString.lit "text/html;q=0.5")) := by
  have hnamed : ItemsNamed (graphsConn (CString.lit "text/html;q=0.5")).request :=
    graphsConn_itemsNamed (by decide +kernel)
  refine ⟨hnamed, (pages_and_index_answered_iff hnamed).mpr ⟨Or.inr ?_, fun _ => ⟨?_, ?_⟩⟩⟩
  · rintro accept haccept
    have haccept' : acceptToNegotiate (graphsConn (CString.lit "text/html;q=0.5")).request =
        some (CString.lit "text/html;q=0.5") := by decide
    obtain rfl : CString.lit "text/html;q=0.5" = accept :=
      Option.some.inj (haccept'.symm.trans haccept)
    exact ⟨bytesOf "text/html;q=0.5", by decide +kernel, by decide +kernel⟩
  · intro buffer hbuffer
    simp [graphsConn, emptyApp] at hbuffer
  · intro iterator hiterator
    obtain rfl : [] = iterator := Option.some.inj hiterator
    simp [ForeignAscii, listedUris]

/-- An Accept header for images leads to NULL, whatever the page is to say. -/
theorem redstorePageNewWithMessage_image_nullPointer :
    ItemsNamed (graphsConn (CString.lit "image/png")).request ∧
      (∀ code message, redstorePageNewWithMessage memoryWorld code message
          (graphsConn (CString.lit "image/png")) =
        .error .nullPointer (graphsConn (CString.lit "image/png"))) ∧
      handleGraphIndex memoryWorld (graphsConn (CString.lit "image/png")) =
        .error .nullPointer (graphsConn (CString.lit "image/png")) := by
  have hformat : messageFormat (graphsConn (CString.lit "image/png")).request = .ok none := by
    decide +kernel
  refine ⟨graphsConn_itemsNamed (by decide +kernel), fun code message => ?_, ?_⟩
  · exact pageNewWithMessage_eq hformat
  · have hcontexts : (memoryWorld.storageGetContexts
        (graphsConn (CString.lit "image/png")).app.storage).value = some [] := rfl
    exact handleGraphIndex_eq hformat hcontexts

end RedStore.Service
