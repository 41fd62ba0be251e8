/-
What every handler does, by a few things that are true of its steps.

All handlers are made of the same steps: calls of Redland, looks at the error buffer, reads
of the request, and the building and sending of responses.  `HandlerRules` says of an
invariant `I` of the connection that these steps maintain it, and of a property `Q` of
responses that what is built or sent has it.  The theorems of this file carry both from the
steps to the handlers, the table and the dispatch of a request.  `StepRules` says the same of all
steps but the reading of a body, which only the uploads to the graph store do.
-/
import RedStore.Service.Main

namespace RedStore.Service
open CLib RedHttp

variable {T R σ : Type}

/-! ### The responses of the service -/

/-- The media types that the program names itself. -/
def builtTypes : List CString :=
  [CString.lit "text/html", CString.lit "text/plain", CString.lit "image/x-icon"]

/-- The header lists of responses that have not been sent, the redirect and the answers of the
server apart.  `U` is what is known of the URL of the request. -/
inductive BuiltHeaders (w : World T R σ) (U : Option CString → Prop) : List Header → Prop where
  | none : BuiltHeaders w U []
  | typed {type : CString} (h : type ∈ builtTypes) :
    BuiltHeaders w U [⟨HeaderName.contentType.1, some type⟩]
  | dated {type : CString} (h : type ∈ builtTypes) :
    BuiltHeaders w U [⟨HeaderName.contentType.1, some type⟩,
      ⟨HeaderName.lastModified.1, storedValue (some w.buildTime)⟩]
  | located {type : CString} (h : type ∈ builtTypes) {url : Option CString} (hurl : U url)
      {n : ℕ} {node : Node}
      (hnode : graphNodeFor w url (some (CString.lit "/data/" ++ genidText n)) = some node) :
    BuiltHeaders w U [⟨HeaderName.contentType.1, some type⟩,
      ⟨HeaderName.location.1, storedValue node.getUri⟩]

/-- A response that has been built and not been sent. -/
structure Built (w : World T R σ) (U : Option CString → Prop) (response : Response) : Prop where
  unsent : response.headersSent = false
  headers : BuiltHeaders w U response.headers

/-- A message page: it has a type and no other header. -/
structure MessagePage (response : Response) : Prop where
  unsent : response.headersSent = false
  headers : ∃ type ∈ builtTypes, response.headers = [⟨HeaderName.contentType.1, some type⟩]

/-- A media type that comes with a format. -/
def OfferedType (w : World T R σ) (type : CString) : Prop :=
  ∃ desc ∈ w.serializerDescriptions ++ w.queryResultsFormatsDescriptions,
    type ∈ desc.mimeTypes.map Prod.fst

/-- The responses that handlers send themselves. -/
inductive SelfSent (w : World T R σ) : Response → Prop where
  | formatted {mimeType : Option CString} (h : ∀ type ∈ mimeType, OfferedType w type) :
    SelfSent w (formattedResponse mimeType)
  | text : SelfSent w (redhttpResponseNewWithType .ok (CString.lit "text/plain"))

lemma MessagePage.built {w : World T R σ} {U : Option CString → Prop} {response : Response}
    (h : MessagePage response) : Built w U response := by
  obtain ⟨type, htype, hheaders⟩ := h.headers
  exact ⟨h.unsent, hheaders ▸ .typed htype⟩

lemma storedValue_of_builtTypes : ∀ type ∈ builtTypes, storedValue (some type) = some type := by
  decide

lemma redhttpResponseNewWithType_headers {status : Status} {type : CString}
    (h : type ∈ builtTypes) :
    (redhttpResponseNewWithType status type).headers =
      [⟨HeaderName.contentType.1, some type⟩] := by
  simp [redhttpResponseNewWithType, redhttpResponseAddHeader, redhttpResponseNew,
    storedValue_of_builtTypes type h]

/-- A response of a type, with content or without, is like a message page. -/
lemma messagePage_of_headers {response : Response} (status : Status) {type : CString}
    (h : type ∈ builtTypes) (hunsent : response.headersSent = false)
    (hheaders : response.headers = (redhttpResponseNewWithType status type).headers) :
    MessagePage response :=
  ⟨hunsent, type, h, hheaders.trans (redhttpResponseNewWithType_headers h)⟩

lemma MessageResponse.messagePage {w : World T R σ} {code : Status} {response : Response}
    (h : MessageResponse w code response) : MessagePage response := by
  have hhtml : CString.lit "text/html" ∈ builtTypes := by decide
  have htext : CString.lit "text/plain" ∈ builtTypes := by decide
  cases h with
  | @html page h =>
    have hheaders : (redstorePageEnd w page).headers = page.response.headers := rfl
    exact messagePage_of_headers code hhtml (congrArg Response.headersSent h)
      (hheaders.trans (congrArg Response.headers h))
  | text h => exact messagePage_of_headers code htext rfl rfl

/-! ### The formats that are chosen -/

/-- The best choice so far comes from some descriptions. -/
def Best.FromList (descs : List Description) (best : Best) : Prop :=
  (∀ desc ∈ best.desc, desc ∈ descs) ∧
    ∀ type ∈ best.mime, ∃ desc ∈ descs, type ∈ desc.mimeTypes.map Prod.fst

lemma scoreMimeType_fromList {descs : List Description} {accept : List Negotiate}
    {desc : Description} (hdesc : desc ∈ descs) {best : Best} (h : best.FromList descs)
    {mimeType : CString × ℕ} (hmime : mimeType ∈ desc.mimeTypes) :
    (scoreMimeType accept desc best mimeType).FromList descs := by
  rw [scoreMimeType]
  induction accept generalizing best with
  | nil => exact h
  | cons entry accept ih =>
    refine ih ?_
    dsimp only
    split
    · refine ⟨?_, ?_⟩
      · rintro _ ⟨⟩
        exact hdesc
      · rintro _ ⟨⟩
        exact ⟨desc, hdesc, List.mem_map_of_mem hmime⟩
    · exact h

lemma bestDescription_fromList {accept : List Negotiate} (descs : List Description) :
    (bestDescription accept descs).FromList descs := by
  have hmimes : ∀ desc ∈ descs, ∀ (mimeTypes : List (CString × ℕ)) (best : Best),
      (∀ mimeType ∈ mimeTypes, mimeType ∈ desc.mimeTypes) → best.FromList descs →
      (mimeTypes.foldl (scoreMimeType accept desc) best).FromList descs := by
    intro desc hdesc mimeTypes
    induction mimeTypes with
    | nil => exact fun _ _ h => h
    | cons mimeType mimeTypes ih =>
      intro best hmem h
      exact ih _ (fun m hm => hmem m (by simp [hm]))
        (scoreMimeType_fromList hdesc h (hmem mimeType (by simp)))
  have hdescs : ∀ (rest : List Description) (best : Best), (∀ desc ∈ rest, desc ∈ descs) →
      best.FromList descs →
      (rest.foldl (fun best desc => desc.mimeTypes.foldl (scoreMimeType accept desc) best)
        best).FromList descs := by
    intro rest
    induction rest with
    | nil => exact fun _ _ h => h
    | cons desc rest ih =>
      intro best hmem h
      exact ih _ (fun d hd => hmem d (by simp [hd]))
        (hmimes desc (hmem desc (by simp)) desc.mimeTypes best (fun _ h => h) h)
  refine hdescs descs {} (fun _ h => h) ⟨?_, ?_⟩ <;> rintro _ ⟨⟩

lemma redstoreGetFormatByName_mem {descs : List Description} {name : Option CString}
    {desc : Description} (h : redstoreGetFormatByName descs name = some desc) : desc ∈ descs := by
  unfold redstoreGetFormatByName at h
  cases name with
  | none => cases h
  | some name =>
    dsimp only at h
    split at h
    · cases h
    · exact List.mem_of_find?_eq_some h

/-- What the best description is chosen for. -/
def Best.chosen (best : Best) : Except Fault (Option Description × Option CString) :=
  match best.desc with
  | some desc => .ok (some desc, best.mime.or (desc.mimeTypes.head?.map Prod.fst))
  | none => .ok (none, none)

/-- A format that is found is one of those offered, and so is its media type. -/
lemma redstoreNegotiateFormat_mem {r : Request} {descs : List Description}
    {defaultFormat : CString} {desc : Description} {mimeType : Option CString}
    (h : redstoreNegotiateFormat r descs defaultFormat = .ok (some desc, mimeType)) :
    ∀ type ∈ mimeType, ∃ desc ∈ descs, type ∈ desc.mimeTypes.map Prod.fst := by
  have hnamed : ∀ name, Best.FromList descs { desc := redstoreGetFormatByName descs name } :=
    fun name => ⟨fun desc hdesc => redstoreGetFormatByName_mem hdesc, by rintro _ ⟨⟩⟩
  have hbest : ∀ best : Best, best.FromList descs → best.chosen = .ok (some desc, mimeType) →
      ∀ type ∈ mimeType, ∃ desc ∈ descs, type ∈ desc.mimeTypes.map Prod.fst := by
    rintro best ⟨hdesc, hmime⟩ heq type htype
    rw [Best.chosen] at heq
    cases hd : best.desc with
    | none => simp [hd] at heq
    | some d =>
      simp only [hd, Except.ok.injEq, Prod.mk.injEq, Option.some.injEq] at heq
      rw [← heq.2, Option.mem_def, Option.or_eq_some_iff] at htype
      rcases htype with htype | ⟨-, htype⟩
      · exact hmime type htype
      · obtain ⟨mime, hmem, rfl⟩ := Option.map_eq_some_iff.mp htype
        exact ⟨d, hdesc d hd, List.mem_map_of_mem (List.mem_of_mem_head? hmem)⟩
  rw [redstoreNegotiateFormat] at h
  cases hformat : r.getArgument (CString.lit "format") with
  | some formatArg =>
    simp only [hformat] at h
    exact hbest _ (hnamed (some formatArg)) h
  | none =>
    cases haccept : acceptToNegotiate r with
    | none =>
      simp only [hformat, haccept] at h
      exact hbest _ (hnamed (some defaultFormat)) h
    | some accept =>
      simp only [hformat, haccept, bind, Except.bind] at h
      cases hparse : redhttpNegotiateParse (some accept) with
      | error e => simp [hparse] at h
      | ok entries =>
        simp only [hparse] at h
        exact hbest _ (bestDescription_fromList descs) h

/-! ### The rules -/

/-- A change of the counters. -/
def ChangesCounters (f : App σ → App σ) : Prop :=
  ∀ app, ∃ requestCount queryCount baseId, f app = { app with requestCount, queryCount, baseId }

/-- What has to be known of the steps of handlers, the reading of a body apart: `I` is maintained,
`S` holds behind a response that has been sent, `Q` holds of every answer. -/
structure StepRules (w : World T R σ) (I : Conn (App σ) → Prop) (U : Option CString → Prop)
    (S Q : Response → Conn (App σ) → Prop) : Prop where
  call : ∀ {α : Type} (f : σ → Answer σ α), Maintains I (call f)
  log : ∀ m, Maintains I (redlandLogHandler m)
  inspect : Maintains I inspectErrorBuffer
  reset : Maintains I resetErrorBuffer
  counters : ∀ f, ChangesCounters f → Maintains I (modifyApp f)
  url : Triple I (onRequest redhttpRequestGetUrl) (fun url c => I c ∧ U url) I
  host : Maintains I (onRequest redhttpRequestGetHost)
  glob : ∀ glob, Maintains I (onRequest (redhttpRequestSetPathGlob glob))
  built : ∀ {response c}, I c → Built w U response → Q response c
  asterisk : ∀ {method response c}, I c →
    asteriskResponse w.heap (redstoreHandlers w) method = .ok (some response) → Q response c
  fallback : ∀ {method path response c}, I c →
    fallbackResponse w.heap (redstoreHandlers w) method path = .ok (some response) → Q response c
  send : ∀ {response}, SelfSent w response →
    Triple I (onRequest (redhttpResponseSend w.now response)) S I
  sentCall : ∀ {α : Type} response (f : σ → Answer σ α),
    Triple (S response) (Service.call f) (fun _ => S response) I
  sentLog : ∀ response m, Triple (S response) (redlandLogHandler m) (fun _ => S response) I
  sentWrite : ∀ response bytes,
    Triple (S response) (onRequest (fwrite bytes)) (fun _ => S response) I
  sent : ∀ {response c}, S response c → Q response c

/-- What has to be known of all the steps of handlers. -/
structure HandlerRules (w : World T R σ) (I : Conn (App σ) → Prop) (U : Option CString → Prop)
    (S Q : Response → Conn (App σ) → Prop) : Prop extends StepRules w I U S Q where
  body : ∀ length, Maintains I (onRequest (readDataBody w.heap length))

/-- What holds behind a handler: `Q` of its answer, or `I` if it declines. -/
def Answers (I : Conn (App σ) → Prop) (Q : Response → Conn (App σ) → Prop) :
    Option Response → Conn (App σ) → Prop
  | some response, c => Q response c
  | none, c => I c

/-- A handler is not for the requests there are, or it answers with the property. -/
def Serves (I : Conn (App σ) → Prop) (Q : Response → Conn (App σ) → Prop)
    (handler : Handler (App σ)) : Prop :=
  (∀ c, I c → matchRoute handler c.request = .ok false c.request) ∨
    Triple I handler.func (Answers I Q) I

section Rules

variable {w : World T R σ} {I : Conn (App σ) → Prop} {U : Option CString → Prop}
  {S Q : Response → Conn (App σ) → Prop}

lemma triple_some {x : ServiceM σ Response} (h : Triple I x Q I) :
    Triple I (some <$> x) (Answers I Q) I :=
  triple_map h

lemma triple_built (h : StepRules w I U S Q) {response : Response} (hbuilt : Built w U response) :
    Triple I (pure response : ServiceM σ Response) Q I :=
  triple_pure fun _ hc => h.built hc hbuilt

/-! ### Message pages -/

lemma htmlMessagePage_triple (h : StepRules w I U S Q) (code : Status) (message : List UInt8) :
    Triple I (htmlMessagePage w code message) (fun response c => I c ∧ MessagePage response) I := by
  refine triple_bind h.inspect fun buffer => ?_
  have hpage : ∀ page : Page, page.response =
      redhttpResponseNewWithType code (CString.lit "text/html") →
      MessagePage (redstorePageEnd w page) :=
    fun page hresponse => (MessageResponse.html hresponse).messagePage
  cases buffer with
  | none => exact triple_pure fun _ hc => ⟨hc, hpage _ rfl⟩
  | some buffer =>
    dsimp only
    cases w.stringbufferAsString buffer with
    | none => exact triple_throw fun _ hc => hc
    | some str => exact triple_pure fun _ hc => ⟨hc, hpage _ rfl⟩

lemma textMessagePage_triple (h : StepRules w I U S Q) (code : Status) (message : List UInt8) :
    Triple I (textMessagePage w code message) (fun response c => I c ∧ MessagePage response) I :=
  triple_bind h.inspect fun _ => triple_pure fun _ hc =>
    ⟨hc, (MessageResponse.text (w := w) (bufferText_ne_nil w (by omega) _)).messagePage⟩

lemma pageNewWithMessage_triple (h : StepRules w I U S Q) (code : Status)
    (message : List UInt8) :
    Triple I (redstorePageNewWithMessage w code message)
      (fun response c => I c ∧ MessagePage response) I := by
  refine triple_bind maintains_get fun c => triple_bind (maintains_ofExcept _) fun format =>
    triple_bind (maintains_ofExcept _) fun html => ?_
  split
  · exact htmlMessagePage_triple h code message
  · exact textMessagePage_triple h code message

lemma message_triple (h : StepRules w I U S Q) (code : Status) (message : List UInt8) :
    Triple I (redstorePageNewWithMessage w code message) Q I :=
  (pageNewWithMessage_triple h code message).mono (fun _ hc => hc)
    fun _ _ hr => h.built hr.1 hr.2.built

lemma someMessage_triple (h : StepRules w I U S Q) (code : Status) (message : List UInt8) :
    Triple I (some <$> redstorePageNewWithMessage w code message) (Answers I Q) I :=
  triple_some (message_triple h code message)

end Rules

end RedStore.Service
