/-
Text from requests and from the store in HTML pages.

Four kinds of pages have such text in them: the message pages, the list of graphs, the redirect
and the forms for updates, which post to the path they have been asked for at.  Each is given
here as a document of fixed markup and inserted strings.  A message page escapes what it
inserts; the list of graphs does too, but for no quote, although it writes a URI of the server
itself into a quoted value; the redirect and the forms insert the path as it is.
-/
import RedStore.CLib.Markup
import RedStore.RedHttp.UrlRoundTrip
import RedStore.Service.ErrorPages
import RedStore.Service.HeadRequests

namespace RedStore.Service
open CLib RedHttp Markup

/-- The characters that `raptor_xml_escape_string_write` escapes for a quote. -/
def XmlSpecial (quote c : UInt8) : Prop :=
  c = ch '<' ∨ c = ch '&' ∨ c = ch '>' ∨ c = quote ∧ (c = ch '"' ∨ c = ch '\'')

instance (quote : UInt8) : DecidablePred (XmlSpecial quote) := fun c =>
  inferInstanceAs (Decidable (c = ch '<' ∨ c = ch '&' ∨ c = ch '>' ∨
    c = quote ∧ (c = ch '"' ∨ c = ch '\'')))

section World

variable {T R σ : Type} (w : World T R σ)

/-- `raptor_xml_escape_string_write` escapes these, and nothing else. -/
def EscapesXml : Prop :=
  ∀ str quote, Escaped (XmlSpecial quote) (XmlSpecial quote) str (w.xmlEscape str quote)

/-! ### The pages -/

/-- The head of an error page, up to its title. -/
def errorPageHead : List UInt8 :=
  bytesOf "<?xml version=\"1.0\" encoding=\"utf-8\"?>\n" ++
  bytesOf "<!DOCTYPE html PUBLIC \"-//W3C//DTD XHTML 1.0 Strict//EN\"\n" ++
  bytesOf " \"http://www.w3.org/TR/xhtml1/DTD/xhtml1-strict.dtd\">\n" ++
  bytesOf "<html xmlns=\"http://www.w3.org/1999/xhtml\">\n" ++
  bytesOf "<head><meta charset=\"utf-8\" /><title>"

/-- The title of an error page. -/
def errorPageTitle (code : Status) : List UInt8 :=
  decimal code.code ++ bytesOf " " ++ bytesOf code.message

/-- `ERROR_PAGE_FMT` before the explanation. -/
def errorPageFront (code : Status) : List UInt8 :=
  errorPageHead ++ errorPageTitle code ++
  (bytesOf "</title></head>\n" ++ bytesOf "<body>\n<h1>") ++ errorPageTitle code ++
  (bytesOf "</h1>\n" ++ bytesOf "<p>")

/-- The redirect to a path. -/
def redirectPieces (code : Status) (url : CString) : List Piece :=
  [.markup (errorPageFront code ++ bytesOf "The document has moved <a href=\""),
    .insert .doubleQuoted url.bytes url.bytes,
    .markup (bytesOf "\">here</a>." ++ bytesOf "</p>\n" ++ bytesOf "</body></html>\n")]

/-- A form for updates that is at a path. -/
def updateFormPieces (title : String) (path : CString) (rest : List UInt8) : List Piece :=
  [.markup ((staticPage w title).buffer ++ bytesOf "<form method=\"post\" action=\""),
    .insert .doubleQuoted path.bytes path.bytes,
    .markup rest]

/-- A message page, with the text of the error buffer. -/
def messagePieces (code : Status) (message : List UInt8) (errors : Option CString) :
    List Piece :=
  [.markup ((redstorePageNew code (bytesOf code.message)).buffer ++ bytesOf "<p>"),
    .insert .content message (w.xmlEscape message 0),
    .markup (bytesOf "</p>\n")] ++
  (errors.elim [] fun str =>
    [.markup (bytesOf "<pre>"),
      .insert .content str.bytes (w.xmlEscape str.bytes 0),
      .markup (bytesOf "</pre>")]) ++
  [.markup (pageFoot w)]

/-- A link of the list of graphs: what stands before the inserted part of its target, this
part, and the URI of the graph. -/
def linkPieces (front : String) (target uri : CString) : List Piece :=
  [.markup (bytesOf front),
    .insert .doubleQuoted target.bytes (w.xmlEscape target.bytes 0),
    .markup (bytesOf "\">"),
    .insert .content uri.bytes (w.xmlEscape uri.bytes 0),
    .markup (bytesOf "</a></li>\n")]

/-- The link for a graph. -/
def graphItem (rootUrl uri : CString) : Except Fault (List Piece) :=
  if strstr uri.bytes rootUrl.bytes then .ok (linkPieces w "<li><a href=\"" uri uri)
  else do
    let escaped ← redhttpUrlEscape uri.bytes
    .ok (linkPieces w "<li><a href=\"/data/?graph=" (CString.ofBytes escaped) uri)

/-- The links for some graphs. -/
def graphItems (rootUrl : CString) : List CString → Except Fault (List Piece)
  | [] => .ok []
  | uri :: uris => do
    let item ← graphItem w rootUrl uri
    let items ← graphItems rootUrl uris
    .ok (item ++ items)

/-- The list of graphs, which says so when there are none. -/
def indexPieces (listed : Bool) (items : List Piece) : List Piece :=
  if listed then
    [.markup ((redstorePageNew .ok (bytesOf "Named Graphs")).buffer ++ bytesOf "<ul>\n")] ++ items ++
      [.markup (bytesOf "</ul>\n" ++
        bytesOf "<p>This document is also available as <a href=\"/graphs?format=text\">plain text</a>.</p>\n" ++
        pageFoot w)]
  else
    [.markup ((redstorePageNew .ok (bytesOf "Named Graphs")).buffer ++
      bytesOf "<p>No named graphs.</p>\n" ++ pageFoot w)]

/-! ### The responses are these pages -/

/-- The response has these pieces for its content, with the strings at the places that are
given for them. -/
def PageOf (response : Response) (pieces : List Piece) : Prop :=
  response.contentBuffer = some (render pieces) ∧ Placed (.text .content) pieces

/-- A page with more pieces. -/
def Page.appendPieces (page : Page) (pieces : List Piece) : Page :=
  { page with buffer := page.buffer ++ render pieces }

variable {w}

lemma errorPage_contentBuffer {heap : Heap} {code : Status} {explanation : List UInt8}
    {response : Response} (h : redhttpResponseNewErrorPage heap code explanation = some response) :
    response.contentBuffer = some (errorPageText code explanation) := by
  simp only [redhttpResponseNewErrorPage] at h
  split_ifs at h
  exact Option.some.inj h ▸ rfl

lemma errorPageText_eq (code : Status) (explanation : List UInt8) :
    errorPageText code explanation =
      errorPageFront code ++ explanation ++ (bytesOf "</p>\n" ++ bytesOf "</body></html>\n") := by
  simp only [errorPageText, errorPageFront, errorPageHead, errorPageTitle, List.append_assoc]

lemma run_content {s : List UInt8} (h : ch '<' ∉ s) :
    (Context.text .content).run s = .text .content :=
  (text_of_not_mem .content h).1

lemma lt_not_mem_message (code : Status) : ch '<' ∉ bytesOf code.message := by
  cases code <;> decide

lemma run_errorPageFront (code : Status) :
    (Context.text .content).run (errorPageFront code) = .text .content := by
  have hcode : ch '<' ∉ decimal code.code :=
    fun h => absurd (isdigit_of_mem_decimal h) (by decide)
  have htitle : (Context.text .content).run (errorPageTitle code) = .text .content := by
    refine run_content ?_
    simp only [errorPageTitle, List.mem_append, not_or]
    exact ⟨⟨hcode, by decide⟩, lt_not_mem_message code⟩
  have hhead : (Context.text .content).run errorPageHead = .text .content := by decide +kernel
  have hmiddle : (Context.text .content).run
      (bytesOf "</title></head>\n" ++ bytesOf "<body>\n<h1>") = .text .content := by decide
  have hend : (Context.text .content).run (bytesOf "</h1>\n" ++ bytesOf "<p>") =
      .text .content := by decide
  exact run_stays (run_stays (run_stays (run_stays hhead htitle) hmiddle) htitle) hend

lemma pageOf_redirect {heap : Heap} {url : CString} {code : Status} {response : Response}
    (h : redhttpResponseNewRedirect heap url code = some response) :
    PageOf response (redirectPieces code url) := by
  have hcontent : response.contentBuffer = some (errorPageText code (redirectMessage url)) := by
    simp only [redhttpResponseNewRedirect] at h
    split at h
    · obtain ⟨page, hpage, rfl⟩ := Option.map_eq_some_iff.mp h
      have hbuffer : page.contentBuffer = _ := errorPage_contentBuffer hpage
      exact hbuffer
    · cases h
  refine ⟨?_, ?_, trivial⟩
  · rw [hcontent, errorPageText_eq, redirectMessage]
    simp [redirectPieces]
  · show (Context.text .content).run (errorPageFront code ++ _) = .text .doubleQuoted
    rw [run_append, run_errorPageFront]
    decide

/-- The head of a page, up to its title. -/
def pageHead : List UInt8 :=
  bytesOf "<?xml version=\"1.0\" encoding=\"utf-8\"?>\n" ++
  bytesOf "<!DOCTYPE html PUBLIC \"-//W3C//DTD XHTML 1.0 Strict//EN\"\n" ++
  bytesOf "          \"http://www.w3.org/TR/xhtml1/DTD/xhtml1-strict.dtd\">\n" ++
  bytesOf "<html xmlns=\"http://www.w3.org/1999/xhtml\">\n" ++
  bytesOf "<head>\n" ++ bytesOf "  <meta charset=\"utf-8\" />\n" ++
  bytesOf "  <title>RedStore - "

lemma redstorePageNew_buffer (code : Status) (title : List UInt8) :
    (redstorePageNew code title).buffer = pageHead ++ title ++
      (bytesOf "</title>\n" ++ bytesOf "</head>\n" ++ bytesOf "<body>\n" ++ bytesOf "<h1>") ++
      title ++ bytesOf "</h1>\n" := by
  simp only [redstorePageNew, Page.appendString, Page.appendBytes, pageHead, List.nil_append,
    List.append_assoc]

lemma run_redstorePageNew {code : Status} {title : List UInt8} (h : ch '<' ∉ title) :
    (Context.text .content).run (redstorePageNew code title).buffer = .text .content := by
  have hhead : (Context.text .content).run pageHead = .text .content := by decide +kernel
  have hmiddle : (Context.text .content).run (bytesOf "</title>\n" ++ bytesOf "</head>\n" ++
      bytesOf "<body>\n" ++ bytesOf "<h1>") = .text .content := by decide
  have hend : (Context.text .content).run (bytesOf "</h1>\n") = .text .content := by decide
  have htitle := run_content h
  rw [redstorePageNew_buffer]
  exact run_stays (run_stays (run_stays (run_stays hhead htitle) hmiddle) htitle) hend

/-- An HTML message page is one with the text that the error buffer has. -/
lemma pageOf_htmlMessagePage {code : Status} {message : List UInt8} {c c' : Conn (App σ)}
    {response : Response} (h : htmlMessagePage w code message c = .ok response c') :
    PageOf response (messagePieces w code message
      (c.app.errorBuffer.bind w.stringbufferAsString)) := by
  have hfront : (Context.text .content).run ((redstorePageNew code (bytesOf code.message)).buffer ++
      bytesOf "<p>") = .text .content :=
    run_stays (run_redstorePageNew (lt_not_mem_message code)) (by decide)
  simp only [htmlMessagePage, bind_apply, inspect_apply] at h
  cases hbuffer : c.app.errorBuffer with
  | none =>
    simp only [hbuffer, pure_apply, EStateM.Result.ok.injEq] at h
    rw [← h.1]
    refine ⟨?_, hfront, trivial⟩
    simp [redstorePageEnd, redhttpResponseSetContent, messagePieces,
      Page.appendString, Page.appendEscaped]
  | some buffer =>
    simp only [hbuffer] at h
    cases hstr : w.stringbufferAsString buffer with
    | none => simp [hstr] at h
    | some str =>
      simp only [hstr, pure_apply, EStateM.Result.ok.injEq] at h
      have herrors : (some buffer).bind w.stringbufferAsString = some str := hstr
      rw [← h.1, herrors]
      refine ⟨?_, hfront, ?_, trivial⟩
      · simp [redstorePageEnd, redhttpResponseSetContent, messagePieces,
          Page.appendString, Page.appendEscaped]
      · show (((Context.text .content).run _).run (bytesOf "</p>\n")).run (bytesOf "<pre>") = _
        rw [hfront]
        decide

/-! ### The list of graphs -/

lemma appendPieces_appendPieces (page : Page) (pieces pieces' : List Piece) :
    (page.appendPieces pieces).appendPieces pieces' = page.appendPieces (pieces ++ pieces') := by
  simp only [Page.appendPieces, render_append, List.append_assoc]

lemma appendGraphItem_eq (rootUrl : CString) (page : Page) (uri : CString) :
    appendGraphItem w rootUrl page uri = (graphItem w rootUrl uri).map page.appendPieces := by
  have hlink : ∀ front target, ((((page.appendString front).appendEscaped w
      target.bytes).appendString "\">").appendEscaped w uri.bytes).appendString "</a></li>\n" =
        page.appendPieces (linkPieces w front target uri) := by
    intro front target
    simp [Page.appendString, Page.appendEscaped, Page.appendPieces, linkPieces]
  rw [appendGraphItem, graphItem]
  split
  · rw [hlink]
    rfl
  · cases redhttpUrlEscape uri.bytes with
    | error e => rfl
    | ok escaped => exact congrArg Except.ok (hlink _ _)

/-- The loop writes the links for the URIs that are listed. -/
lemma appendGraphItems_pieces {rootUrl : CString} {iterator : Stream Node} {page page' : Page}
    {c c' : Conn (App σ)} (h : appendGraphItems w rootUrl iterator page c = .ok page' c') :
    ∃ items, graphItems w rootUrl (listedUris iterator) = .ok items ∧
      page' = page.appendPieces items := by
  have hnil : page = page.appendPieces [] := by
    simp [Page.appendPieces]
  induction iterator generalizing page c with
  | nil =>
    cases h
    exact ⟨[], rfl, hnil⟩
  | cons event iterator ih =>
    match event with
    | .log m =>
      simp only [appendGraphItems, bind_apply, redlandLogHandler_apply] at h
      exact ih h hnil
    | .object none =>
      cases h
      exact ⟨[], rfl, hnil⟩
    | .object (some node) =>
      cases huri : node.getUri with
      | none =>
        simp only [appendGraphItems, huri, pure_apply, EStateM.Result.ok.injEq] at h
        refine ⟨[], by simp [listedUris, huri, graphItems], ?_⟩
        rw [← h.1]
        exact hnil
      | some uri =>
        simp only [appendGraphItems, huri, bind_apply, appendGraphItem_eq] at h
        cases hitem : graphItem w rootUrl uri with
        | error e => simp [hitem, Except.map] at h
        | ok item =>
          simp only [hitem, Except.map, ofExcept_ok] at h
          obtain ⟨items, hitems, rfl⟩ := ih h (by simp [Page.appendPieces])
          refine ⟨item ++ items, ?_, appendPieces_appendPieces page item items⟩
          simp only [listedUris, huri, graphItems, hitem, hitems, bind, Except.bind]

/-- A reader is in the content of an element before and behind a link. -/
lemma placed_link {front : String} {target uri : CString}
    (h : (Context.text .content).run (bytesOf front) = .text .doubleQuoted) :
    Placed (.text .content) (linkPieces w front target uri) ∧
      (Context.text .content).run (fixedMarkup (linkPieces w front target uri)) =
        .text .content := by
  have hclose : (Context.text .doubleQuoted).run (bytesOf "\">") = .text .content := by decide
  refine ⟨⟨h, ?_, trivial⟩, ?_⟩
  · show ((Context.text .content).run (bytesOf front)).run (bytesOf "\">") = .text .content
    rw [h, hclose]
  · show (Context.text .content).run (bytesOf front ++ (bytesOf "\">" ++ bytesOf "</a></li>\n")) = _
    rw [run_append, h]
    decide

lemma placed_graphItems {rootUrl : CString} {uris : List CString} {items : List Piece}
    (h : graphItems w rootUrl uris = .ok items) :
    Placed (.text .content) items ∧
      (Context.text .content).run (fixedMarkup items) = .text .content := by
  induction uris generalizing items with
  | nil =>
    cases h
    exact ⟨trivial, rfl⟩
  | cons uri uris ih =>
    rw [graphItems] at h
    cases hitem : graphItem w rootUrl uri with
    | error e => simp [hitem, bind, Except.bind] at h
    | ok item =>
      cases hitems : graphItems w rootUrl uris with
      | error e => simp [hitem, hitems, bind, Except.bind] at h
      | ok items' =>
        simp only [hitem, hitems, bind, Except.bind, Except.ok.injEq] at h
        have hfirst : Placed (.text .content) item ∧
            (Context.text .content).run (fixedMarkup item) = .text .content := by
          rw [graphItem] at hitem
          split at hitem
          · exact Except.ok.inj hitem ▸ placed_link (by decide)
          · cases hescaped : redhttpUrlEscape uri.bytes with
            | error e => simp [hescaped, bind, Except.bind] at hitem
            | ok escaped =>
              simp only [hescaped, bind, Except.bind, Except.ok.injEq] at hitem
              exact hitem ▸ placed_link (by decide)
        obtain ⟨hplaced, hrun⟩ := ih hitems
        rw [← h, fixedMarkup_append]
        refine ⟨placed_append hfirst.1 ?_, run_stays hfirst.2 hrun⟩
        rw [hfirst.2]
        exact hplaced

/-- The HTML list of graphs is one with the links for the URIs that are listed. -/
lemma pageOf_handleHtmlGraphIndex {iterator : Stream Node} {c c' : Conn (App σ)}
    {response : Response} (h : handleHtmlGraphIndex w iterator c = .ok response c') :
    ∃ items, graphItems w (rootUrlOf c.request) (listedUris iterator) = .ok items ∧
      PageOf response (indexPieces w (hasObject iterator) items) := by
  have hfront : (Context.text .content).run
      (redstorePageNew .ok (bytesOf "Named Graphs")).buffer = .text .content :=
    run_redstorePageNew (by decide)
  obtain ⟨c₁, hroot⟩ := serverRootUrl_apply (c := c)
  simp only [handleHtmlGraphIndex, bind_apply, hroot] at h
  cases hobject : hasObject iterator with
  | true =>
    simp only [hobject, if_true, bind_apply] at h
    cases hloop : appendGraphItems w (rootUrlOf c.request) iterator
        ((redstorePageNew .ok (bytesOf "Named Graphs")).appendString "<ul>\n") c₁ with
    | error e c₂ => simp [hloop] at h
    | ok page c₂ =>
      obtain ⟨items, hitems, rfl⟩ := appendGraphItems_pieces hloop
      simp only [hloop, pure_apply, EStateM.Result.ok.injEq] at h
      refine ⟨items, hitems, ?_, ?_⟩
      · rw [← h.1]
        simp only [redstorePageEnd, redhttpResponseSetContent, indexPieces, Page.appendString,
          Page.appendPieces, if_true, render_append, render_markup, render_nil, List.append_nil,
          List.append_assoc]
      · have hlist : (Context.text .content).run
            ((redstorePageNew .ok (bytesOf "Named Graphs")).buffer ++ bytesOf "<ul>\n") =
              .text .content := run_stays hfront (by decide)
        rw [indexPieces, if_pos rfl, List.append_assoc, List.singleton_append, Placed, hlist]
        exact placed_append (placed_graphItems hitems).1 trivial
  | false =>
    obtain ⟨c₂, hlogs⟩ := logRest_ok (c := c₁) iterator
    simp only [hobject, Bool.false_eq_true, if_false, bind_apply, hlogs, pure_apply,
      EStateM.Result.ok.injEq] at h
    refine ⟨[], by rw [listedUris_of_not_hasObject hobject]; rfl, ?_, trivial⟩
    rw [← h.1]
    simp [redstorePageEnd, redhttpResponseSetContent, indexPieces, Page.appendString]

/-! ### The forms -/

/-- A change of a page that only appends to it, always the same text. -/
def Appends (f : Page → Page) : Prop := ∃ text, ∀ page, (f page).buffer = page.buffer ++ text

lemma appends_id : Appends id := ⟨[], fun _ => (List.append_nil _).symm⟩

lemma Appends.comp {f g : Page → Page} (hg : Appends g) (hf : Appends f) :
    Appends fun page => g (f page) := by
  obtain ⟨s, hs⟩ := hf
  obtain ⟨t, ht⟩ := hg
  exact ⟨s ++ t, fun page => by rw [ht, hs, List.append_assoc]⟩

lemma appends_foldl {α : Type} {f : Page → α → Page} (h : ∀ a, Appends fun page => f page a)
    (as : List α) : Appends fun page => as.foldl f page := by
  induction as with
  | nil => exact appends_id
  | cons a as ih => exact ih.comp (h a)

lemma appends_appendString (str : String) : Appends (Page.appendString · str) :=
  ⟨bytesOf str, fun _ => rfl⟩

lemma appends_appendLines (strs : List String) : Appends (Page.appendLines · strs) :=
  appends_foldl appends_appendString strs

lemma appends_appendOption (defaultName : Option CString) (desc : Description) :
    Appends fun page => appendOption w defaultName page desc := by
  have hbytes : ∀ str : List UInt8, Appends (Page.appendBytes · str) :=
    fun str => ⟨str, fun _ => rfl⟩
  have hescaped : ∀ str : List UInt8, Appends (Page.appendEscaped w · str) :=
    fun str => ⟨_, fun _ => rfl⟩
  cases hlabel : desc.label with
  | none =>
    simp only [appendOption, hlabel]
    exact appends_id
  | some label =>
    simp only [appendOption, hlabel]
    have hstart : Appends fun page : Page =>
        ((page.appendString "<option value=\"").appendBytes desc.name.bytes).appendString "\"" :=
      (appends_appendString _).comp ((hbytes _).comp (appends_appendString _))
    have hrest : Appends fun page : Page =>
        ((page.appendString ">").appendEscaped w label.bytes).appendString "</option>\n" :=
      (appends_appendString _).comp ((hescaped _).comp (appends_appendString _))
    by_cases hname : defaultName = some desc.name
    · simp only [hname, if_true]
      exact hrest.comp ((appends_appendString " selected=\"selected\"").comp hstart)
    · simp only [hname, if_false]
      exact hrest.comp hstart

lemma appends_syntaxSelectList (fieldName : String) (defaultName : Option CString)
    (descs : List Description) :
    Appends fun page => syntaxSelectList w fieldName defaultName descs page :=
  (appends_appendString _).comp
    ((appends_foldl (appends_appendOption defaultName) descs).comp (appends_appendLines _))

/-- A form for updates is one that is at the path of the request; the rest of it is the same
for every path. -/
lemma pageOf_handlePageUpdateForm (title : String) (htitle : ch '<' ∉ bytesOf title) :
    ∃ rest, ∀ {c c' : Conn (App σ)} {path : CString} {response : Response},
      c.request.path = some path →
      handlePageUpdateForm w title c = .ok (some response) c' →
        PageOf response (updateFormPieces w title path rest) := by
  obtain ⟨f, ⟨rest, hrest⟩, hform⟩ : ∃ f, Appends f ∧ ∀ c : Conn (App σ),
      handlePageUpdateForm w title c =
        .ok (some (redstorePageEnd w (f (appendFormStart c.request.path (staticPage w title))))) c :=
    ⟨_, (appends_appendLines _).comp ((appends_syntaxSelectList _ _ _).comp
      (appends_appendLines _)), fun _ => rfl⟩
  refine ⟨bytesOf "\">\n" ++ rest ++ pageFoot w, ?_⟩
  intro c c' path response hpath h
  rw [hform, hpath, EStateM.Result.ok.injEq, Option.some.injEq] at h
  have hfront : (Context.text .content).run (staticPage w title).buffer = .text .content :=
    run_redstorePageNew htitle
  refine ⟨?_, ?_, trivial⟩
  · rw [← h.1]
    simp [redstorePageEnd, redhttpResponseSetContent, hrest, appendFormStart, updateFormPieces,
      Page.appendString, Page.appendBytes]
  · show (Context.text .content).run _ = .text .doubleQuoted
    rw [run_append, hfront]
    decide

/-! ### Escaped and raw -/

/-- Nothing in the string means anything in a value in double quotes. -/
def MarkupFree (s : CString) : Prop :=
  ch '<' ∉ s.bytes ∧ ch '&' ∉ s.bytes ∧ ch '"' ∉ s.bytes

instance (s : CString) : Decidable (MarkupFree s) :=
  inferInstanceAs (Decidable (ch '<' ∉ s.bytes ∧ ch '&' ∉ s.bytes ∧ ch '"' ∉ s.bytes))

lemma markupFree_iff {s : CString} :
    MarkupFree s ↔ ∀ c ∈ s.bytes, ¬ Place.doubleQuoted.Unsafe c := by
  simp only [MarkupFree, Place.Unsafe, Place.stop, not_or]
  constructor
  · rintro ⟨hlt, hamp, hquote⟩ c hc
    refine ⟨?_, ?_, ?_⟩ <;> rintro rfl
    · exact hlt hc
    · exact hamp hc
    · exact hquote hc
  · intro h
    exact ⟨fun hc => (h _ hc).1 rfl, fun hc => (h _ hc).2.1 rfl, fun hc => (h _ hc).2.2 rfl⟩

/-- A string that is inserted raw. -/
lemma staysText_raw_iff {front rest : List UInt8} {s : CString} :
    StaysText [.markup front, .insert .doubleQuoted s.bytes s.bytes, .markup rest] ↔
      MarkupFree s := by
  rw [markupFree_iff, ← escaped_self_iff fun _ => True]
  simp [StaysText, Piece.StaysText]

/-- Escaping for no quote is enough in the content of an element. -/
lemma EscapesXml.content (hw : EscapesXml w) (str : List UInt8) :
    Escaped Place.content.Unsafe (fun _ => True) str (w.xmlEscape str 0) := by
  refine (hw str 0).mono (fun c _ hc => ?_) (fun _ _ => trivial)
  rcases hc with hc | hc | hc
  · exact Or.inl hc
  · exact Or.inr (Or.inl hc)
  · exact Or.inl hc

/-- In a value it is not, if there is a quote in the string. -/
lemma EscapesXml.value_iff (hw : EscapesXml w) (str : List UInt8) :
    Escaped Place.doubleQuoted.Unsafe (fun _ => True) str (w.xmlEscape str 0) ↔
      ch '"' ∉ str := by
  constructor
  · intro h hmem
    refine stop_not_mem h ((hw str 0).mem ?_ hmem)
    decide
  · intro hquote
    refine (hw str 0).mono (fun c hmem hc => ?_) (fun _ _ => trivial)
    rcases hc with hc | hc | rfl
    · exact Or.inl hc
    · exact Or.inr (Or.inl hc)
    · exact absurd hmem hquote

lemma EscapesXml.staysText_link (hw : EscapesXml w) {front : String} {target uri : CString} :
    StaysText (linkPieces w front target uri) ↔ ch '"' ∉ target.bytes := by
  rw [← hw.value_iff]
  simp [StaysText, linkPieces, Piece.StaysText, hw.content]

lemma EscapesXml.staysText_message (hw : EscapesXml w) (code : Status) (message : List UInt8)
    (errors : Option CString) : StaysText (messagePieces w code message errors) := by
  cases errors <;> simp [StaysText, messagePieces, Piece.StaysText, hw.content]

/-- An escaped URL has no quote. -/
lemma quote_not_mem_escaped {uri : CString} {escaped : List UInt8}
    (h : redhttpUrlEscape uri.bytes = .ok escaped) : ch '"' ∉ (CString.ofBytes escaped).bytes :=
  fun hmem => (escapedFrom_of_ok h).text.not_mem (by decide) (by decide)
    ((CString.bytes_ofBytes_sublist escaped).subset hmem)

lemma EscapesXml.staysText_graphItem (hw : EscapesXml w) {rootUrl uri : CString}
    {item : List Piece} (h : graphItem w rootUrl uri = .ok item) :
    StaysText item ↔ (strstr uri.bytes rootUrl.bytes = true → ch '"' ∉ uri.bytes) := by
  rw [graphItem] at h
  split at h
  · next hroot => rw [← Except.ok.inj h, hw.staysText_link, forall_prop_of_true hroot]
  · next hroot =>
    cases hescaped : redhttpUrlEscape uri.bytes with
    | error e => simp [hescaped, bind, Except.bind] at h
    | ok escaped =>
      simp only [hescaped, bind, Except.bind, Except.ok.injEq] at h
      rw [← h, hw.staysText_link]
      exact iff_of_true (quote_not_mem_escaped hescaped) fun h => absurd h hroot

lemma EscapesXml.staysText_graphItems (hw : EscapesXml w) {rootUrl : CString}
    {uris : List CString} {items : List Piece} (h : graphItems w rootUrl uris = .ok items) :
    StaysText items ↔
      ∀ uri ∈ uris, strstr uri.bytes rootUrl.bytes = true → ch '"' ∉ uri.bytes := by
  induction uris generalizing items with
  | nil =>
    cases h
    simp [StaysText]
  | cons uri uris ih =>
    rw [graphItems] at h
    cases hitem : graphItem w rootUrl uri with
    | error e => simp [hitem, bind, Except.bind] at h
    | ok item =>
      cases hitems : graphItems w rootUrl uris with
      | error e => simp [hitem, hitems, bind, Except.bind] at h
      | ok items' =>
        simp only [hitem, hitems, bind, Except.bind, Except.ok.injEq] at h
        rw [← h, staysText_append, hw.staysText_graphItem hitem, ih hitems, List.forall_mem_cons]

lemma staysText_index {listed : Bool} {items : List Piece} (h : listed = false → items = []) :
    StaysText (indexPieces w listed items) ↔ StaysText items := by
  cases listed with
  | true =>
    rw [indexPieces, if_pos rfl, staysText_append, staysText_append]
    simp [StaysText, Piece.StaysText]
  | false =>
    rw [h rfl]
    simp [indexPieces, StaysText, Piece.StaysText]

/-- A message page has text where text is inserted; the list of graphs does exactly if no URI
with a double quote is linked to directly, the redirect and the forms exactly if nothing in the
path means anything in a value. -/
theorem insertedText_iff (hw : EscapesXml w) :
    (∀ {heap : Heap} {url : CString} {code : Status} {response : Response},
      redhttpResponseNewRedirect heap url code = some response →
        PageOf response (redirectPieces code url) ∧
          (KeepsMarkup (redirectPieces code url) ↔ MarkupFree url)) ∧
    (∀ title, ch '<' ∉ bytesOf title → ∃ rest,
      ∀ {c c' : Conn (App σ)} {path : CString} {response : Response},
        c.request.path = some path → handlePageUpdateForm w title c = .ok (some response) c' →
          PageOf response (updateFormPieces w title path rest) ∧
            (KeepsMarkup (updateFormPieces w title path rest) ↔ MarkupFree path)) ∧
    (∀ {iterator : Stream Node} {c c' : Conn (App σ)} {response : Response},
      handleHtmlGraphIndex w iterator c = .ok response c' →
        ∃ items, graphItems w (rootUrlOf c.request) (listedUris iterator) = .ok items ∧
          PageOf response (indexPieces w (hasObject iterator) items) ∧
          (KeepsMarkup (indexPieces w (hasObject iterator) items) ↔
            ∀ uri ∈ listedUris iterator,
              strstr uri.bytes (rootUrlOf c.request).bytes = true → ch '"' ∉ uri.bytes)) ∧
    ∀ {code : Status} {message : List UInt8} {c c' : Conn (App σ)} {response : Response},
      htmlMessagePage w code message c = .ok response c' →
        ∃ errors, errors = c.app.errorBuffer.bind w.stringbufferAsString ∧
          PageOf response (messagePieces w code message errors) ∧
          KeepsMarkup (messagePieces w code message errors) := by
  refine ⟨?redirect, ?form, ?index, ?message⟩
  case redirect =>
    intro heap url code response h
    have hpage := pageOf_redirect h
    exact ⟨hpage, (keepsMarkup_iff hpage.2).trans staysText_raw_iff⟩
  case form =>
    intro title htitle
    obtain ⟨rest, hrest⟩ := pageOf_handlePageUpdateForm (w := w) title htitle
    refine ⟨rest, fun hpath h => ?_⟩
    have hpage := hrest hpath h
    exact ⟨hpage, (keepsMarkup_iff hpage.2).trans staysText_raw_iff⟩
  case index =>
    intro iterator c c' response h
    obtain ⟨items, hitems, hpage⟩ := pageOf_handleHtmlGraphIndex h
    have hnone : hasObject iterator = false → items = [] := by
      intro hobject
      rw [listedUris_of_not_hasObject hobject] at hitems
      exact (Except.ok.inj hitems).symm
    refine ⟨items, hitems, hpage, ?_⟩
    rw [keepsMarkup_iff hpage.2, staysText_index hnone, hw.staysText_graphItems hitems]
  case message =>
    intro code message c c' response h
    have hpage := pageOf_htmlMessagePage h
    exact ⟨_, rfl, hpage, (keepsMarkup_iff hpage.2).mpr (hw.staysText_message code message _)⟩

end World

/-! ### In memory -/

lemma escapesXml_memoryWorld : EscapesXml memoryWorld := by
  intro str quote
  show Escaped (XmlSpecial quote) (XmlSpecial quote) str (str.flatMap (xmlEscapeByte quote))
  induction str with
  | nil => exact .nil
  | cons c str ih =>
    rw [List.flatMap_cons]
    rw [xmlEscapeByte]
    split_ifs with hamp hlt hgt hquote hapos
    · subst hamp
      exact .reference (Or.inr (Or.inl rfl)) (by decide) ih
    · subst hlt
      exact .reference (Or.inl rfl) (by decide) ih
    · subst hgt
      exact .reference (Or.inr (Or.inr (Or.inl rfl))) (by decide) ih
    · obtain ⟨rfl, rfl⟩ := hquote
      exact .reference (by decide) (by decide) ih
    · obtain ⟨rfl, rfl⟩ := hapos
      exact .reference (by decide) (by decide) ih
    · refine .plain ?_ ih
      rintro (h | h | h | ⟨h, h' | h'⟩)
      · exact hlt h
      · exact hamp h
      · exact hgt h
      · exact hquote ⟨h, h'⟩
      · exact hapos ⟨h, h'⟩

/-- The redirect to `/graphs` is text in its page. -/
theorem insertedText_graphs : ∃ response,
    redhttpResponseNewRedirect memoryWorld.heap (CString.lit "/graphs") .movedPermanently =
      some response ∧
    PageOf response (redirectPieces .movedPermanently (CString.lit "/graphs")) ∧
    KeepsMarkup (redirectPieces .movedPermanently (CString.lit "/graphs")) := by
  obtain ⟨response, h⟩ := Option.isSome_iff_exists.mp
    (show (redhttpResponseNewRedirect memoryWorld.heap (CString.lit "/graphs")
      .movedPermanently).isSome = true by decide +kernel)
  obtain ⟨hpage, hkeeps⟩ := (insertedText_iff escapesXml_memoryWorld).1 h
  exact ⟨response, h, hpage, hkeeps.mpr (by decide)⟩

/-- A request can put an element into the page of its redirect, and a URI of the server itself
an attribute into the list of graphs. -/
theorem insertedText_markup :
    (∃ r sent c', exchange (plainInput "GET" "/\"><b>/") = some (r, sent, c') ∧
      sent.contentBuffer =
        some (render (redirectPieces .movedPermanently (CString.lit "/\"><b>"))) ∧
      ¬ KeepsMarkup (redirectPieces .movedPermanently (CString.lit "/\"><b>"))) ∧
    ∃ items, graphItems memoryWorld (CString.lit "http://localhost/")
        [CString.lit "http://localhost/\"id=\""] = .ok items ∧
      ¬ KeepsMarkup (indexPieces memoryWorld true items) := by
  constructor
  · obtain ⟨⟨r, sent, c'⟩, hexchange, hcontent⟩ := (Option.any_eq_true _ _).mp
      (show (exchange (plainInput "GET" "/\"><b>/")).any (fun it => decide (it.2.1.contentBuffer =
        some (render (redirectPieces .movedPermanently (CString.lit "/\"><b>"))))) = true by
          decide +kernel)
    refine ⟨r, sent, c', hexchange, of_decide_eq_true hcontent, fun h => ?_⟩
    exact absurd (staysText_raw_iff.mp h.1) (by decide)
  · have hitems : ∃ items, graphItems memoryWorld (CString.lit "http://localhost/")
        [CString.lit "http://localhost/\"id=\""] = .ok items := ⟨_, rfl⟩
    obtain ⟨items, hitems⟩ := hitems
    refine ⟨items, hitems, fun h => ?_⟩
    have hstays := (staysText_index (fun h => Bool.noConfusion h)).mp h.1
    exact (escapesXml_memoryWorld.staysText_graphItems hitems).mp hstays _ List.mem_cons_self
      (by decide) (by decide)

end RedStore.Service
