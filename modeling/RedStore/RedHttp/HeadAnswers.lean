/-
What is behind the head of a response to a HEAD request.

`redhttp_response_send` writes the buffer of every response that has one, whatever the method of
the request.  So nothing is behind the head exactly when the answer itself has no content: for a
table of handlers that is a condition on what they return for HEAD, and the only answers of the
server that meet it are those of its fallbacks.
-/
import RedStore.RedHttp.FramedResponses
import RedStore.RedHttp.ReadBack
import RedStore.RedHttp.Server

namespace RedStore.RedHttp
open CLib

/-- Where a response has a head, it is all that is on the socket. -/
def BodySuppressed (sent : Response) (r : Request) : Prop :=
  r.hasHeaders = true → r.socket.output = headText sent

/-- An answer with which nothing but its head is written. -/
def HeadOnly (response : Response) (r : Request) : Prop :=
  r.hasHeaders = true →
    if response.headersSent then r.socket.output ++ sentContent response = headText response
    else r.socket.output = [] ∧ sentContent response = []

/-! ### Sending -/

section Send

variable {now : Option Tm} {response sent : Response} {r r' : Request}

lemma bodySuppressed_iff (hsend : redhttpResponseSend now response r = .ok sent r') :
    BodySuppressed sent r' ↔ HeadOnly response r := by
  rw [redhttpResponseSend_eq] at hsend
  split at hsend
  · cases hsend
  · obtain ⟨rfl, rfl⟩ : sentResponse now r response = sent ∧
        r.write (sentHead now r response ++ sentContent response) = r' := by
      simpa only [EStateM.Result.ok.injEq] using hsend
    refine forall_congr' fun hr => ?_
    replace hr : r.hasHeaders = true := hr
    show r.socket.output ++ (sentHead now r response ++ sentContent response) = _ ↔ _
    cases hsent : response.headersSent with
    | true =>
      have hhead : sentHead now r response = [] := by
        rw [sentHead, if_neg (by simp [hsent])]
      rw [hhead, List.nil_append, sentResponse, if_pos hsent, if_pos rfl]
    | false =>
      rw [sentHead_of_unsent hsent hr, if_neg Bool.false_ne_true]
      constructor
      · intro h
        have hlength := congrArg List.length h
        simp only [List.length_append] at hlength
        exact ⟨List.length_eq_zero_iff.mp (by omega), List.length_eq_zero_iff.mp (by omega)⟩
      · rintro ⟨houtput, hcontent⟩
        rw [houtput, hcontent, List.nil_append, List.append_nil]

/-- The content of a response that can be sent is not empty if its buffer is not. -/
lemma sentContent_ne_nil {content : List UInt8} (hbuffer : response.contentBuffer = some content)
    (hne : content ≠ []) (hsend : redhttpResponseSend now response r = .ok sent r') :
    sentContent response ≠ [] := by
  have hlength : 0 < response.contentLength := by
    by_contra hle
    rw [redhttpResponseSend_eq, if_pos ⟨by rw [hbuffer]; rfl, by omega⟩] at hsend
    cases hsend
  rw [sentContent, hbuffer, Option.getD_some]
  intro hnil
  rcases List.take_eq_nil_iff.mp hnil with hzero | hnil
  · omega
  · exact hne hnil

lemma BodyIs.headOnly_iff {body : List UInt8} (h : BodyIs response (some body)) :
    HeadOnly response r ↔ (r.hasHeaders = true → r.socket.output = [] ∧ body = []) := by
  rw [HeadOnly, h.unsent, h.sentContent]
  rfl

/-- A response with a buffer that has not been sent is not for a head. -/
lemma not_headOnly_of_content {content : List UInt8} (hsent : response.headersSent = false)
    (hbuffer : response.contentBuffer = some content) (hne : content ≠ [])
    (hsend : redhttpResponseSend now response r = .ok sent r') :
    HeadOnly response r ↔ r.hasHeaders = false := by
  rw [HeadOnly, hsent, if_neg Bool.false_ne_true]
  constructor
  · intro h
    by_contra hr
    exact sentContent_ne_nil hbuffer hne hsend (h (by simpa using hr)).2
  · intro hr hr'
    rw [hr] at hr'
    cases hr'

end Send

/-! ### The answers of the server -/

section Answers

variable {A : Type} {heap : Heap} {handlers : List (Handler A)} {response : Response}

lemma errorPageText_ne_nil (code : Status) (explanation : List UInt8) :
    errorPageText code explanation ≠ [] := by
  simp only [errorPageText, List.append_assoc]
  exact List.cons_ne_nil _ _

/-- The answer with the methods of a path has a body unless it is a 200. -/
lemma bodyIs_checkAllowedResponses {status : Status} {path : Option CString}
    (h : checkAllowedResponses heap status handlers path = .ok response) :
    ∃ body, BodyIs response (some body) ∧ (body = [] ↔ status = .ok) := by
  rw [checkAllowedResponses] at h
  split_ifs at h with hstatus
  · obtain rfl := Except.ok.inj h
    exact ⟨[], (bodyIs_empty _).addHeader (by decide) _, by simp [hstatus]⟩
  · split at h
    · cases h
    · next page hpage =>
      obtain rfl := Except.ok.inj h
      exact ⟨_, (bodyIs_errorPage hpage).addHeader (by decide) _,
        iff_of_false (errorPageText_ne_nil _ _) hstatus⟩

/-- What the fallbacks answer has no body for HEAD, and none for OPTIONS for a path of the
table. -/
lemma bodyIs_fallbackResponse {method path : CString}
    (h : fallbackResponse heap handlers method path = .ok (some response)) :
    ∃ body, BodyIs response (some body) ∧ (body = [] ↔ method = CString.lit "HEAD" ∨
      method = CString.lit "OPTIONS" ∧ ∃ it ∈ handlers, it.path = some path) := by
  have hchecked : ∀ {status : Status},
      (checkAllowedResponses heap status handlers (some path)).map some = .ok (some response) →
        checkAllowedResponses heap status handlers (some path) = .ok response := by
    intro status hmap
    cases hcheck : checkAllowedResponses heap status handlers (some path) with
    | error e => simp [hcheck, Except.map] at hmap
    | ok page => simpa [hcheck, Except.map] using hmap
  rw [fallbackResponse] at h
  by_cases hhead : method = CString.lit "HEAD"
  · rw [if_pos hhead] at h
    rw [← Option.some.inj (Except.ok.inj h)]
    exact ⟨[], bodyIs_empty _, by simp [hhead]⟩
  · rw [if_neg hhead] at h
    by_cases hpath : (handlers.any fun it => it.path = some path) = true
    · rw [if_pos hpath] at h
      have hmem : ∃ it ∈ handlers, it.path = some path := by simpa using hpath
      by_cases hoptions : method = CString.lit "OPTIONS"
      · rw [if_pos hoptions] at h
        obtain ⟨body, hbody, hnil⟩ := bodyIs_checkAllowedResponses (hchecked h)
        exact ⟨body, hbody, by simp [hnil, hoptions, hmem]⟩
      · rw [if_neg hoptions] at h
        obtain ⟨body, hbody, hnil⟩ := bodyIs_checkAllowedResponses (hchecked h)
        exact ⟨body, hbody, by simp [hnil, hoptions, hhead]⟩
    · rw [if_neg hpath] at h
      have hmem : ¬ ∃ it ∈ handlers, it.path = some path := by simpa using hpath
      refine ⟨_, bodyIs_errorPage (Except.ok.inj h), iff_of_false (errorPageText_ne_nil _ _) ?_⟩
      rintro (h | ⟨-, h⟩)
      · exact hhead h
      · exact hmem h

/-- The answer to a HEAD request for `*` has a body. -/
lemma bodyIs_asteriskResponse
    (h : asteriskResponse heap handlers (CString.lit "HEAD") = .ok (some response)) :
    ∃ body, BodyIs response (some body) ∧ body ≠ [] := by
  rw [asteriskResponse, if_neg (by decide)] at h
  split at h
  · cases h
  · next page hpage =>
    obtain rfl := Option.some.inj (Except.ok.inj h)
    exact ⟨_, (bodyIs_errorPage hpage).addHeader (by decide) _, errorPageText_ne_nil _ _⟩

end Answers

/-! ### Requests for a head -/

section Requests

variable {A : Type} {heap : Heap} {now : Option Tm} {handlers : List (Handler A)}
  {signature : Option CString} {addr port : CString} {input : List UInt8} {app : A} {r : Request}
  {sent : Response} {c' : Conn A}

/-- A run of the server that reads a HEAD request, answers it and sends the answer. -/
structure HeadRun (heap : Heap) (now : Option Tm) (handlers : List (Handler A))
    (signature : Option CString) (addr port : CString) (input : List UInt8) (app : A)
    (r : Request) (sent : Response) (c' : Conn A) : Prop where
  read : ∃ result, redhttpRequestRead heap (redhttpRequestNew signature addr port input) =
    .ok result r
  method : r.method = some (CString.lit "HEAD")
  served : redhttpServerHandleRequest heap now handlers
    ⟨redhttpRequestNew signature addr port input, app⟩ = .ok sent c'

/-- A HEAD request is never refused, so that its response is that of the dispatcher. -/
lemma HeadRun.answer (h : HeadRun heap now handlers signature addr port input app r sent c') :
    ∃ response c₁, redhttpServerDispatchRequest heap handlers ⟨r, app⟩ = .ok (some response) c₁ ∧
      redhttpResponseSend now response c₁.request = .ok sent c'.request := by
  obtain ⟨result, r₁, response, c₁, hread, hanswer, -, hsend⟩ := handleRequest_of_ok h.served
  obtain ⟨result', hread'⟩ := h.read
  obtain ⟨rfl, rfl⟩ : result' = result ∧ r = r₁ := by
    simpa only [EStateM.Result.ok.injEq] using hread'.symm.trans hread
  have haccepted : result' = 0 := by
    by_contra hne
    rcases (read_refused heap).of_ok rfl hread' hne with hnone | hpost
    · rw [h.method] at hnone
      cases hnone
    · rw [Request.isPost, h.method] at hpost
      exact absurd hpost (by decide)
  rw [answerRequest, if_neg (by simp [haccepted])] at hanswer
  exact ⟨response, c₁, hanswer, hsend⟩

lemma HeadRun.connectionSide
    (h : HeadRun heap now handlers signature addr port input app r sent c') :
    r.connectionSide = ⟨[], signature, .null, none, none⟩ := by
  obtain ⟨result, hread⟩ := h.read
  have hkeeps := keeps_read heap (redhttpRequestNew signature addr port input)
  rw [hread] at hkeeps
  exact hkeeps

lemma HeadRun.output (h : HeadRun heap now handlers signature addr port input app r sent c') :
    r.socket.output = [] := congrArg ConnectionSide.output h.connectionSide

lemma HeadRun.pathGlob (h : HeadRun heap now handlers signature addr port input app r sent c') :
    r.pathGlob = .null := congrArg ConnectionSide.pathGlob h.connectionSide

/-- What the handlers of a table have to leave of a request for a head: an answer that is only a
head, or a request for which the fallbacks have one. -/
def AnswersHead (handlers : List (Handler A)) : Option Response → Request → Prop
  | some response, r => HeadOnly response r
  | none, r => r.hasHeaders = true → r.socket.output = [] ∧
      (r.method = some (CString.lit "HEAD") ∨
        r.method = some (CString.lit "OPTIONS") ∧ ∃ it ∈ handlers, it.path = r.path)

/-- A table whose handlers answer a request with a head only. -/
def TableAnswersHead (handlers : List (Handler A)) (c : Conn A) : Prop :=
  (c.request.path = some (CString.lit "*") → c.request.hasHeaders = false) ∧
    (c.request.path ≠ some (CString.lit "*") → ∀ answer c₁,
      tryRoutes handlers c = .ok answer c₁ → AnswersHead handlers answer c₁.request)

/-- Whatever the table, the body of a response to HEAD is left out exactly when the handlers
leave it out, and the request is not for `*`. -/
lemma HeadRun.bodySuppressed_iff
    (h : HeadRun heap now handlers signature addr port input app r sent c') :
    BodySuppressed sent c'.request ↔ TableAnswersHead handlers ⟨r, app⟩ := by
  obtain ⟨response, c₁, hanswer, hsend⟩ := h.answer
  rw [RedHttp.bodySuppressed_iff hsend]
  simp only [redhttpServerDispatchRequest, bind_apply, get_apply, h.method] at hanswer
  cases hpath : r.path with
  | none => simp [hpath] at hanswer
  | some path =>
    simp only [hpath] at hanswer
    by_cases hstar : path = CString.lit "*"
    · rw [if_pos hstar] at hanswer
      subst hstar
      cases hasterisk : asteriskResponse heap handlers (CString.lit "HEAD") with
      | error e => simp [hasterisk] at hanswer
      | ok answer =>
        simp only [hasterisk, ofExcept_ok, EStateM.Result.ok.injEq] at hanswer
        obtain ⟨rfl, rfl⟩ := hanswer
        obtain ⟨body, hbody, hne⟩ := bodyIs_asteriskResponse hasterisk
        rw [hbody.headOnly_iff]
        constructor
        · intro hhead
          refine ⟨fun _ => ?_, fun hno => absurd hpath hno⟩
          by_contra hr
          exact hne (hhead (by simpa using hr)).2
        · rintro ⟨hno, -⟩ hr
          rw [hno hpath] at hr
          cases hr
    · rw [if_neg hstar, bind_apply] at hanswer
      have hnot : r.path ≠ some (CString.lit "*") := by
        rw [hpath]
        exact fun heq => hstar (Option.some.inj heq)
      cases hroutes : tryRoutes handlers ⟨r, app⟩ with
      | error e c₂ => simp [hroutes] at hanswer
      | ok answer c₂ =>
        have htable : TableAnswersHead handlers ⟨r, app⟩ ↔ AnswersHead handlers answer c₂.request := by
          constructor
          · intro htable
            exact htable.2 hnot answer c₂ hroutes
          · refine fun hanswers => ⟨fun heq => absurd heq hnot, fun _ answer' c' hrun => ?_⟩
            obtain ⟨rfl, rfl⟩ : answer = answer' ∧ c₂ = c' := by
              simpa only [EStateM.Result.ok.injEq] using hroutes.symm.trans hrun
            exact hanswers
        rw [htable]
        simp only [hroutes] at hanswer
        cases answer with
        | some answer =>
          simp only [pure_apply, EStateM.Result.ok.injEq, Option.some.injEq] at hanswer
          obtain ⟨rfl, rfl⟩ := hanswer
          rfl
        | none =>
          simp only [answerFallback, bind_apply, get_apply] at hanswer
          cases hpath₂ : c₂.request.path with
          | none => simp [hpath₂] at hanswer
          | some path₂ =>
            cases hmethod₂ : c₂.request.method with
            | none => simp [hpath₂, hmethod₂] at hanswer
            | some method₂ =>
              simp only [hpath₂, hmethod₂] at hanswer
              cases hfallback : fallbackResponse heap handlers method₂ path₂ with
              | error e => simp [hfallback] at hanswer
              | ok answer =>
                simp only [hfallback, ofExcept_ok, EStateM.Result.ok.injEq] at hanswer
                obtain ⟨rfl, rfl⟩ := hanswer
                obtain ⟨body, hbody, hnil⟩ := bodyIs_fallbackResponse hfallback
                rw [hbody.headOnly_iff, AnswersHead, hnil, hpath₂, hmethod₂]
                simp only [Option.some.injEq]

end Requests

end RedStore.RedHttp
