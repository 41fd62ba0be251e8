/-
HEAD requests on the wire.

Of the table of the program only the graph store has a handler for HEAD.  It answers with a bare
200 for a graph that is there, and for the default graph; everything else, its own 400, 404 and
500 as well as the 404 of the last handler, is a message page, which is sent with its text.
-/
import RedStore.RedHttp.HeadAnswers
import RedStore.Service.MethodSemantics

namespace RedStore.Service
open CLib RedHttp

variable {T R σ : Type} {w : World T R σ}

/-- The requests that are for something that the graph store has. -/
def HeadServed (w : World T R σ) (c : Conn (App σ)) : Prop :=
  ∃ suffix, c.request.path = some (CString.lit "/data" ++ suffix) ∧
    (requestTarget w (dataConn c suffix).request = .default ∨
      ∃ node, requestTarget w (dataConn c suffix).request = .graph node ∧
        (w.containsContext node c.app.storage).value = true)

/-! ### The pages -/

/-- A message page is a buffer that is not empty, for a response that has not been sent. -/
lemma pageNewWithMessage_content {code : Status} {message : List UInt8} {c c' : Conn (App σ)}
    {response : Response} (h : redstorePageNewWithMessage w code message c = .ok response c') :
    response.headersSent = false ∧
      ∃ content, response.contentBuffer = some content ∧ content ≠ [] := by
  cases (messageResponse_of_ok h).1 with
  | @html page hpage =>
    exact ⟨congrArg Response.headersSent hpage, _, rfl, append_pageFoot_ne_nil w page.buffer⟩
  | text hne => exact ⟨rfl, _, rfl, hne⟩

/-- A message page is not for a head. -/
lemma page_not_headOnly {code : Status} {message : List UInt8} {c c₁ : Conn (App σ)}
    {response sent : Response} {now : Option Tm} {r' : Request}
    (h : (some <$> redstorePageNewWithMessage w code message) c = .ok (some response) c₁)
    (hsend : redhttpResponseSend now response c₁.request = .ok sent r') :
    HeadOnly response c₁.request ↔ (c.request.hasHeaders = true → False) := by
  have hpage := map_some_eq_ok_iff.mp h
  obtain ⟨hsent, content, hbuffer, hne⟩ := pageNewWithMessage_content hpage
  rw [not_headOnly_of_content hsent hbuffer hne hsend, (pageNewWithMessage_of_ok hpage).2]
  show c.request.hasHeaders = false ↔ ¬ c.request.hasHeaders = true
  rw [Bool.not_eq_true]

/-- A bare 200 is. -/
lemma headOnly_of_new {c c₁ : Conn (App σ)} {response : Response} {status : Status}
    (houtput : c.request.socket.output = [])
    (h : (pure (redhttpResponseNew status) : ServiceM σ Response) c = .ok response c₁) :
    HeadOnly response c₁.request := by
  obtain ⟨rfl, rfl⟩ : redhttpResponseNew status = response ∧ c = c₁ := by
    simpa only [pure_apply, EStateM.Result.ok.injEq] using h
  exact fun _ => ⟨houtput, rfl⟩

/-! ### The table -/

lemma handleDataHead_headOnly {c c₁ : Conn (App σ)} {response sent : Response} {now : Option Tm}
    {r' : Request} (houtput : c.request.socket.output = [])
    (h : handleDataHead w c = .ok (some response) c₁)
    (hsend : redhttpResponseSend now response c₁.request = .ok sent r') :
    HeadOnly response c₁.request ↔ (c.request.hasHeaders = true →
      requestTarget w c.request = .default ∨ ∃ node, requestTarget w c.request = .graph node ∧
        (w.containsContext node c.app.storage).value = true) := by
  rw [handleDataHead, withTarget_apply] at h
  cases htarget : requestTarget w c.request with
  | both =>
    simp only [htarget] at h
    simpa using page_not_headOnly h hsend
  | missing =>
    simp only [htarget] at h
    simpa using page_not_headOnly h hsend
  | default =>
    simp only [htarget] at h
    exact iff_of_true (headOnly_of_new houtput (map_some_eq_ok_iff.mp h)) fun _ => Or.inl rfl
  | unnamed =>
    simp only [htarget] at h
    simpa [urlConn, Request.hasHeaders, Request.withUrl] using page_not_headOnly h hsend
  | graph node =>
    simp only [htarget] at h
    have hrun := map_some_eq_ok_iff.mp h
    rw [ifContained_apply] at hrun
    split at hrun
    · next hvalue =>
      have houtput' : (called (urlConn c)
        (w.containsContext node c.app.storage)).request.socket.output = [] := houtput
      exact iff_of_true (headOnly_of_new houtput' hrun) fun _ => Or.inr ⟨node, rfl, hvalue⟩
    · next hvalue =>
      rw [page_not_headOnly (map_some_eq_ok_iff.mpr hrun) hsend]
      show (c.request.hasHeaders = true → False) ↔ _
      have hvalue' : (w.containsContext node c.app.storage).value ≠ true := hvalue
      simp [hvalue']

/-- A HEAD request that is not for the graph store comes to the last handler. -/
lemma dispatchRequest_head {c : Conn (App σ)} {path : CString}
    (hmethod : c.request.method = some (CString.lit "HEAD")) (hpath : c.request.path = some path)
    (hother : ∀ suffix, path ≠ CString.lit "/data" ++ suffix) (hstar : path ≠ CString.lit "*") :
    dispatchRequest w c = handleNotFound w (beforeHandlers c) := by
  have hroutes : ∀ route ∈ (routeTable.drop 3).take 22, route.1.isSome = true ∧
      route.2.isSome = true ∧
        (route.1 = some (CString.lit "HEAD") → route.2 = some (CString.lit "/data*")) := by decide
  refine dispatchRequest_notFound hmethod hpath (fun it hit => ?_) (by decide) hstar
  obtain ⟨hitMethod, hitPath, hhead⟩ := hroutes (it.method, it.path)
    (List.mem_map_of_mem (f := fun it => (it.method, it.path)) hit)
  obtain ⟨pattern, hpattern⟩ := Option.isSome_iff_exists.mp hitMethod
  obtain ⟨pathPattern, hpathPattern⟩ := Option.isSome_iff_exists.mp hitPath
  dsimp only at hpattern hpathPattern hhead
  simp only [routeMismatch, hpattern, hpathPattern, Bool.or_eq_true, bne_iff_ne, ne_eq,
    decide_eq_true_eq]
  by_cases heq : pattern = CString.lit "HEAD"
  · have hpath' := hhead (heq ▸ hpattern)
    rw [hpathPattern, Option.some.injEq] at hpath'
    exact Or.inr (hpath' ▸ matchPath_not_data hother)
  · exact Or.inl heq

/-- What the table makes of a HEAD request is a bare head exactly when the graph store has what
it is for. -/
lemma headRun_served {signature : Option CString} {addr port : CString} {input : List UInt8}
    {app : App σ} {r : Request} {sent : Response} {c' : Conn (App σ)}
    (h : HeadRun w.heap w.now (redstoreHandlers w) signature addr port input app r sent c') :
    BodySuppressed sent c'.request ↔ (r.hasHeaders = true → HeadServed w ⟨r, app⟩) := by
  obtain ⟨response, c₁, hanswer, hsend⟩ := h.answer
  have hpath : ∃ path, r.path = some path := by
    cases hpath : r.path with
    | none => simp [redhttpServerDispatchRequest, bind_apply, hpath] at hanswer
    | some path => exact ⟨path, rfl⟩
  obtain ⟨path, hpath⟩ := hpath
  by_cases hdata : ∃ suffix, path = CString.lit "/data" ++ suffix
  · obtain ⟨suffix, rfl⟩ := hdata
    have hrun : handleDataHead w (dataConn ⟨r, app⟩ suffix) = .ok (some response) c₁ :=
      (dispatchRequest_data (m := .head) h.method hpath h.pathGlob).symm.trans hanswer
    rw [bodySuppressed_iff hsend, handleDataHead_headOnly h.output hrun hsend]
    refine forall_congr' fun _ => ?_
    constructor
    · exact fun htarget => ⟨suffix, hpath, htarget⟩
    · rintro ⟨suffix', hpath', htarget⟩
      have hbytes := congrArg CString.bytes (Option.some.inj (hpath.symm.trans hpath'))
      rw [CString.bytes_append, CString.bytes_append, List.append_cancel_left_eq] at hbytes
      obtain rfl := CString.ext hbytes
      exact htarget
  · have hunserved : ¬ HeadServed w ⟨r, app⟩ := by
      rintro ⟨suffix, hpath', -⟩
      exact hdata ⟨suffix, Option.some.inj (hpath.symm.trans hpath')⟩
    simp only [hunserved, imp_false]
    by_cases hstar : path = CString.lit "*"
    · subst hstar
      rw [h.bodySuppressed_iff, TableAnswersHead]
      simp [hpath]
    · rw [bodySuppressed_iff hsend]
      have hrun : (some <$> redstorePageNewWithMessage w .notFound (bytesOf "Unsupported path."))
          (beforeHandlers ⟨r, app⟩) = .ok (some response) c₁ :=
        (dispatchRequest_head (c := ⟨r, app⟩) h.method hpath (not_exists.mp hdata) hstar).symm.trans
          hanswer
      exact page_not_headOnly hrun hsend

/-- For every table, nothing is written behind the head of a response to HEAD exactly when the
handlers leave it at that; those of the program do exactly for what the graph store has. -/
theorem headRequests_iff {A : Type} {handlers : List (Handler A)} {a : A} {app : App σ}
    {signature : Option CString} {addr port : CString} {input : List UInt8} {r : Request} :
    (∀ {sent : Response} {c' : Conn A},
      HeadRun w.heap w.now handlers signature addr port input a r sent c' →
        (BodySuppressed sent c'.request ↔ TableAnswersHead handlers ⟨r, a⟩)) ∧
    ∀ {sent : Response} {c' : Conn (App σ)},
      HeadRun w.heap w.now (redstoreHandlers w) signature addr port input app r sent c' →
        (BodySuppressed sent c'.request ↔ (r.hasHeaders = true → HeadServed w ⟨r, app⟩)) :=
  ⟨fun h => h.bodySuppressed_iff, fun h => headRun_served h⟩

/-! ### Two requests -/

/-- A request with a method, a target and no headers, as it is on the wire. -/
def plainInput (method target : String) : List UInt8 :=
  bytesOf method ++ bytesOf " " ++ bytesOf target ++ bytesOf " HTTP/1.0\r\n\r\n"

/-- What is read of an input, the response that is sent and the request behind it. -/
def exchange (input : List UInt8) : Option (Request × Response × Conn (App MemoryStore)) :=
  let r := redhttpRequestNew none default default input
  match redhttpRequestRead memoryWorld.heap r, handleRequest memoryWorld ⟨r, emptyApp⟩ with
  | .ok _ r, .ok sent c' => some (r, sent, c')
  | _, _ => none

/-- The runs of the server for HEAD on an empty store. -/
abbrev EmptyHeadRun (input : List UInt8) : Request → Response → Conn (App MemoryStore) → Prop :=
  HeadRun memoryWorld.heap memoryWorld.now (redstoreHandlers memoryWorld) none default default
    input emptyApp

lemma headRun_of_exchange (input : List UInt8) (p : Request → Response → Request → Bool)
    (h : (exchange input).any (fun it =>
      decide (it.1.method = some (CString.lit "HEAD")) && p it.1 it.2.1 it.2.2.request) = true) :
    ∃ r sent c', EmptyHeadRun input r sent c' ∧ p r sent c'.request = true := by
  obtain ⟨⟨r, sent, c'⟩, hexchange, hp⟩ := (Option.any_eq_true _ _).mp h
  rw [Bool.and_eq_true, decide_eq_true_eq] at hp
  rw [exchange] at hexchange
  split at hexchange
  · next result r₁ sent₁ c₁ hread hserved =>
    obtain ⟨rfl, rfl, rfl⟩ : r₁ = r ∧ sent₁ = sent ∧ c₁ = c' := by simpa using hexchange
    exact ⟨r₁, sent₁, c₁, ⟨⟨result, hread⟩, hp.1, hserved⟩, hp.2⟩
  · cases hexchange

/-- A HEAD request for the default graph gets a bare head. -/
theorem headRequests_default : ∃ r sent c',
    EmptyHeadRun (plainInput "HEAD" "/data?default") r sent c' ∧
      TableAnswersHead (redstoreHandlers memoryWorld) ⟨r, emptyApp⟩ ∧
      BodySuppressed sent c'.request := by
  obtain ⟨r, sent, c', hrun, hr⟩ := headRun_of_exchange
    (plainInput "HEAD" "/data?default")
    (fun r _ _ => decide (r.path = some (CString.lit "/data")) && hasDefault r && !hasGraph r)
    (by decide +kernel)
  simp only [Bool.and_eq_true, decide_eq_true_eq, Bool.not_eq_true'] at hr
  have hserved : HeadServed memoryWorld ⟨r, emptyApp⟩ := by
    refine ⟨default, hr.1.1, Or.inl ?_⟩
    have hdefault : hasDefault (dataConn ⟨r, emptyApp⟩ default).request = true := hr.1.2
    have hgraph : hasGraph (dataConn ⟨r, emptyApp⟩ default).request = false := hr.2
    simp [requestTarget, hdefault, hgraph]
  obtain ⟨htable, hown⟩ :
      (BodySuppressed sent c'.request ↔
        TableAnswersHead (redstoreHandlers memoryWorld) ⟨r, emptyApp⟩) ∧
      (BodySuppressed sent c'.request ↔
        (r.hasHeaders = true → HeadServed memoryWorld ⟨r, emptyApp⟩)) :=
    headRequests_iff.imp (fun h => h hrun) (fun h => h hrun)
  have hsuppressed := hown.mpr fun _ => hserved
  exact ⟨r, sent, c', hrun, htable.mp hsuppressed, hsuppressed⟩

/-- A HEAD request for a path of no route gets a page behind the head. -/
theorem headRequests_nowhere : ∃ r sent c',
    EmptyHeadRun (plainInput "HEAD" "/nowhere") r sent c' ∧ sent.status = .notFound ∧
      ¬ BodySuppressed sent c'.request := by
  obtain ⟨r, sent, c', hrun, hr⟩ := headRun_of_exchange
    (plainInput "HEAD" "/nowhere")
    (fun _ sent r' => decide (sent.status = .notFound) && r'.hasHeaders &&
      decide (r'.socket.output ≠ headText sent)) (by decide +kernel)
  simp only [Bool.and_eq_true, decide_eq_true_eq] at hr
  exact ⟨r, sent, c', hrun, hr.1.1, fun h => hr.2 (h hr.1.2)⟩

end RedStore.Service
