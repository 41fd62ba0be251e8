/-
When no handler answers.

`match_route` takes a path by the glob at the end of a pattern or as a whole.  The fallbacks of
the dispatch compare patterns with the path a second time, and only as a whole, also those of
handlers for every method; and they list the methods as `check_allowed_responses` does.
-/
import RedStore.RedHttp.AllowedMethods
import RedStore.RedHttp.Routes

namespace RedStore.RedHttp
open CLib

variable {A : Type}

/-! ### The handlers of a path -/

/-- The handlers that take a path under a method of their own. -/
def takers (handlers : List (Handler A)) (path : CString) : List (Handler A) :=
  handlers.filter fun it =>
    it.method.isSome && it.path.any fun pattern => pathMatches pattern.bytes path.bytes

lemma mem_takers_iff {handlers : List (Handler A)} {path : CString} {it : Handler A} :
    it ∈ takers handlers path ↔ it ∈ handlers ∧ ∃ method pattern, it.method = some method ∧
      it.path = some pattern ∧ pathMatches pattern.bytes path.bytes = true := by
  simp only [takers, List.mem_filter, Bool.and_eq_true, Option.isSome_iff_exists,
    Option.any_eq_true _ _]
  constructor
  · rintro ⟨hit, ⟨method, hmethod⟩, pattern, hpattern, hmatch⟩
    exact ⟨hit, method, pattern, hmethod, hpattern, hmatch⟩
  · rintro ⟨hit, method, pattern, hmethod, hpattern, hmatch⟩
    exact ⟨hit, ⟨method, hmethod⟩, pattern, hpattern, hmatch⟩

/-- A handler for exactly this path takes it. -/
lemma mem_takers_of_literal {handlers : List (Handler A)} {path method : CString}
    {it : Handler A} (hit : it ∈ handlers) (hmethod : it.method = some method)
    (hpath : it.path = some path) : it ∈ takers handlers path :=
  mem_takers_iff.mpr ⟨hit, method, path, hmethod, hpath, by simp [pathMatches]⟩

/-- The handlers that take a path are those that `match_route` accepts for it, when asked for
their own method. -/
lemma mem_takers_iff_matchRoute {handlers : List (Handler A)} {path method pattern : CString}
    {it : Handler A} {r : Request} (hit : it ∈ handlers) (hitMethod : it.method = some method)
    (hitPath : it.path = some pattern) (hpattern : pattern.bytes ≠ [])
    (hmethod : r.method = some method) (hpath : r.path = some path) (hglob : r.pathGlob = .null) :
    it ∈ takers handlers path ↔ ∃ r', matchRoute it r = .ok true r' := by
  have hroute : matchRoute it r = matchRoutePath (some pattern) (some path) r := by
    simp only [matchRoute, bind_apply, get_apply, hitMethod, hmethod, matchMethod,
      beq_self_eq_true, ofExcept_ok, if_true, hitPath, hpath]
  have htaker : it ∈ takers handlers path ↔ pathMatches pattern.bytes path.bytes = true := by
    simp [mem_takers_iff, hit, hitMethod, hitPath]
  rw [htaker, hroute, matchRoutePath]
  cases hmatch : pathMatches pattern.bytes path.bytes with
  | false => simp [matchPath_of_not_matches hpattern hmatch]
  | true =>
    obtain ⟨glob, hglobMatch⟩ := matchPath_of_matches hpattern hmatch
    simp only [hglobMatch, true_iff]
    cases glob with
    | none => exact ⟨r, rfl⟩
    | some glob =>
      have hset : ∃ r', redhttpRequestSetPathGlob (some glob) r = .ok () r' := by
        simp only [redhttpRequestSetPathGlob, bind_apply, get_apply, hglob, pure_apply]
        split
        · exact ⟨_, rfl⟩
        · exact ⟨_, rfl⟩
      obtain ⟨r', hr'⟩ := hset
      exact ⟨r', bind_of_ok hr' _⟩

/-! ### What a fallback answers -/

/-- The Allow header of a response names a method. -/
def AllowNames (response : Response) (method : CString) : Prop :=
  ∃ allow, redhttpHeadersGet response.headers HeaderName.allow.1 = some allow ∧
    method.bytes ∈ headerItems allow

/-- What the answer of a fallback has to be, by the handlers that take the path. -/
def FallbackAgrees (handlers : List (Handler A)) (method path : CString)
    (response : Response) : Prop :=
  if method = CString.lit "HEAD" then
    (response.status = .ok ∧ ∃ it ∈ takers handlers path, it.method = some (CString.lit "GET")) ∨
      (response.status = .notFound ∧
        ∀ it ∈ takers handlers path, it.method ≠ some (CString.lit "GET"))
  else if takers handlers path = [] then response.status = .notFound
  else
    response.status = (if method = CString.lit "OPTIONS" then .ok else .methodNotAllowed) ∧
      ∀ it ∈ takers handlers path, ∀ name ∈ it.method, AllowNames response name

/-- A handler of the table is for exactly this path. -/
def HasLiteral (handlers : List (Handler A)) (path : CString) : Prop :=
  ∃ it ∈ handlers, it.path = some path

/-- There is memory for an error page. -/
def PageGranted (heap : Heap) (status : Status) (explanation : List UInt8) : Prop :=
  heap.malloc ((errorPageText status explanation).length + 1) = true

/-- When the fallbacks agree with the routing: what is taken by a glob is there as a whole path
too, with every method that the glob has, and the methods get into the Allow header. -/
def FallbackSound (heap : Heap) (handlers : List (Handler A)) (method path : CString) : Prop :=
  if method = CString.lit "HEAD" then
    (∃ it ∈ takers handlers path, it.method = some (CString.lit "GET")) →
      ∃ it ∈ handlers, it.method = some (CString.lit "GET") ∧ it.path = some path
  else if takers handlers path = [] then
    ¬ HasLiteral handlers path ∧ PageGranted heap .notFound []
  else
    HasLiteral handlers path ∧
      (∀ it ∈ takers handlers path, ∀ name ∈ it.method,
        ∃ listed ∈ listedMethods handlers path, name.bytes ∈ headerItems listed) ∧
      (method ≠ CString.lit "OPTIONS" → PageGranted heap .methodNotAllowed
        (allowedMessage (allowString (allowedMethods handlers (some path)))))

section Fallback

variable {heap : Heap} {handlers : List (Handler A)} {method path : CString}

lemma snprintfLength_errorPage {status : Status} {explanation : List UInt8}
    (h : explanation.length < bufsiz) : 0 < snprintfLength (errorPageText status explanation) := by
  have htitle : (decimal status.code).length + (bytesOf status.message).length ≤ 24 := by
    cases status <;> decide
  have hok : (decimal Status.ok.code).length + (bytesOf Status.ok.message).length = 5 := by decide
  have hpage : 10 < (errorPageText .ok []).length ∧ (errorPageText .ok []).length < bufsiz := by
    decide +kernel
  -- two pages differ in what stands twice in them, and in the explanation
  have hlen : (errorPageText status explanation).length +
      2 * ((decimal Status.ok.code).length + (bytesOf Status.ok.message).length) =
        (errorPageText .ok []).length +
          2 * ((decimal status.code).length + (bytesOf status.message).length) +
          explanation.length := by
    unfold errorPageText
    simp only [List.length_append]
    have hnil : ([] : List UInt8).length = 0 := rfl
    omega
  have hrange : bufsiz + bufsiz + 48 < intRange := by decide
  rw [snprintfLength, if_pos (by omega)]
  omega

/-- An error page with a short explanation is made when there is memory for it. -/
lemma errorPage_granted_iff {status : Status} {explanation : List UInt8}
    (h : explanation.length < bufsiz) :
    (∃ response, redhttpResponseNewErrorPage heap status explanation = some response) ↔
      PageGranted heap status explanation := by
  have hpos : 0 < snprintfLength (errorPageText status explanation) := snprintfLength_errorPage h
  have hnot : ¬ snprintfLength (errorPageText status explanation) ≤ 0 := by omega
  simp only [redhttpResponseNewErrorPage, PageGranted, hnot, if_false]
  by_cases hm : heap.malloc ((errorPageText status explanation).length + 1) = true <;> simp [hm]

lemma errorPage_spec {status : Status} {explanation : List UInt8} {response : Response}
    (h : redhttpResponseNewErrorPage heap status explanation = some response) :
    response.status = status ∧
      response.headers = [⟨HeaderName.contentType.1, some (CString.lit "text/html")⟩] := by
  simp only [redhttpResponseNewErrorPage] at h
  split_ifs at h
  exact Option.some.inj h ▸ ⟨rfl, rfl⟩

lemma length_allowedMessage (allow : CString) : (allowedMessage allow).length < bufsiz := by
  have hpos : 0 < bufsiz := by decide
  rw [allowedMessage, List.length_take]
  omega

/-- The Allow header is the first of its name, and it is stored. -/
lemma redhttpHeadersGet_allow {response : Response} {allow : CString}
    (hheaders : response.headers = [] ∨ response.headers =
      [⟨HeaderName.contentType.1, some (CString.lit "text/html")⟩]) (hallow : allow.strlen ≠ 0) :
    redhttpHeadersGet (redhttpResponseAddHeader response HeaderName.allow
      (some allow)).headers HeaderName.allow.1 = some allow := by
  have hself : sameKey HeaderName.allow.1 HeaderName.allow.1 = true := by decide
  have hother : sameKey HeaderName.allow.1 HeaderName.contentType.1 = false := by decide
  rw [redhttpResponseAddHeader, storedValue_of_ne hallow]
  rcases hheaders with h | h
  · simp only [h, List.nil_append, redhttpHeadersGet, hself, if_true]
  · simp only [h, List.cons_append, List.nil_append, redhttpHeadersGet, hself, hother, if_true,
      Bool.false_eq_true, if_false]

lemma allowNames_iff {response : Response} {allow name : CString}
    (hheaders : response.headers = [] ∨ response.headers =
      [⟨HeaderName.contentType.1, some (CString.lit "text/html")⟩]) (hallow : allow.strlen ≠ 0) :
    AllowNames (redhttpResponseAddHeader response HeaderName.allow (some allow)) name ↔
      name.bytes ∈ headerItems allow := by
  simp [AllowNames, redhttpHeadersGet_allow hheaders hallow]

lemma allowString_strlen_ne_zero (handlers : List (Handler A)) (path : Option CString) :
    (allowString (allowedMethods handlers path)).strlen ≠ 0 := by
  intro hzero
  have hnil : (allowString (allowedMethods handlers path)).bytes = [] :=
    List.length_eq_zero_iff.mp hzero
  have hitems := headerItems_allowString_selected handlers path
  rw [headerItems, hnil, List.flatMap_cons] at hitems
  have hoptions : headerItems (CString.lit "OPTIONS") = [bytesOf "OPTIONS"] := by decide
  rw [hoptions] at hitems
  simp [List.splitOnP_nil, bytesOf] at hitems

lemma checkAllowedResponses_status {status : Status} {response : Response}
    (h : checkAllowedResponses heap status handlers (some path) = .ok response) :
    response.status = status := by
  rw [checkAllowedResponses] at h
  split at h
  · cases h
  · next page hpage =>
    obtain rfl := Except.ok.inj h
    show page.status = status
    by_cases hok : status = .ok
    · rw [if_pos hok] at hpage
      rw [← Option.some.inj hpage, hok]
      rfl
    · rw [if_neg hok] at hpage
      exact (errorPage_spec hpage).1

/-- What `check_allowed_responses` gives for a path, when it does. -/
lemma checkAllowedResponses_iff {status : Status}
    (hstatus : status = .ok ∨ status = .methodNotAllowed) :
    (∃ response, checkAllowedResponses heap status handlers (some path) = .ok response ∧
      response.status = status ∧
        ∀ it ∈ takers handlers path, ∀ name ∈ it.method, AllowNames response name) ↔
      (∀ it ∈ takers handlers path, ∀ name ∈ it.method,
        ∃ listed ∈ listedMethods handlers path, name.bytes ∈ headerItems listed) ∧
      (status ≠ .ok → PageGranted heap .methodNotAllowed
        (allowedMessage (allowString (allowedMethods handlers (some path))))) := by
  set allow := allowString (allowedMethods handlers (some path)) with hallowdef
  have hallow : allow.strlen ≠ 0 := allowString_strlen_ne_zero handlers (some path)
  have hlisted : ∀ name : CString, name.bytes ∈ headerItems allow ↔
      ∃ listed ∈ listedMethods handlers path, name.bytes ∈ headerItems listed := by
    intro name
    rw [hallowdef, headerItems_allowString, List.mem_flatMap]
  have hnames : ∀ {response : Response}, response.headers = [] ∨ response.headers =
      [⟨HeaderName.contentType.1, some (CString.lit "text/html")⟩] →
      ((∀ it ∈ takers handlers path, ∀ name ∈ it.method,
        AllowNames (redhttpResponseAddHeader response HeaderName.allow (some allow)) name) ↔
      ∀ it ∈ takers handlers path, ∀ name ∈ it.method,
        ∃ listed ∈ listedMethods handlers path, name.bytes ∈ headerItems listed) := by
    intro response hheaders
    simp only [allowNames_iff hheaders hallow, hlisted]
  rcases hstatus with rfl | rfl
  · simp only [checkAllowedResponses, if_true, Except.ok.injEq, exists_eq_left', ne_eq,
      not_true_eq_false, false_implies, and_true]
    rw [hnames (Or.inl rfl)]
    exact and_iff_right rfl
  · have hne : (Status.methodNotAllowed = Status.ok) = False := by simp
    simp only [checkAllowedResponses, hne, if_false, ne_eq, not_false_eq_true, forall_true_left]
    rw [← errorPage_granted_iff (length_allowedMessage allow)]
    cases hpage : redhttpResponseNewErrorPage heap .methodNotAllowed (allowedMessage allow) with
    | none => simp
    | some page =>
      obtain ⟨hcode, hheaders⟩ := errorPage_spec hpage
      simp only [← hallowdef, Except.ok.injEq, exists_eq_left', Option.some.injEq, exists_eq',
        and_true]
      rw [hnames (Or.inr hheaders)]
      exact and_iff_right hcode

/-- A fallback for HEAD looks for a handler for GET. -/
lemma headFallback_iff :
    (∃ response, fallbackResponse heap handlers (CString.lit "HEAD") path = .ok (some response) ∧
      FallbackAgrees handlers (CString.lit "HEAD") path response) ↔
      FallbackSound heap handlers (CString.lit "HEAD") path := by
  have hfound : (handlers.any fun it =>
      it.method = some (CString.lit "GET") && it.path = some path) = true ↔
        ∃ it ∈ handlers, it.method = some (CString.lit "GET") ∧ it.path = some path := by
    simp
  have htaker : (∃ it ∈ handlers, it.method = some (CString.lit "GET") ∧ it.path = some path) →
      ∃ it ∈ takers handlers path, it.method = some (CString.lit "GET") := by
    rintro ⟨it, hit, hmethod, hpath⟩
    exact ⟨it, mem_takers_of_literal hit hmethod hpath, hmethod⟩
  simp only [fallbackResponse, if_true, Except.ok.injEq, Option.some.injEq, exists_eq_left',
    FallbackAgrees, FallbackSound, redhttpResponseNewEmpty, redhttpResponseNew]
  by_cases h : ∃ it ∈ handlers, it.method = some (CString.lit "GET") ∧ it.path = some path
  · rw [if_pos (hfound.mpr h)]
    simp [htaker h, h]
  · rw [if_neg (mt hfound.mp h)]
    simp only [reduceCtorEq, false_and, true_and, false_or, h, imp_false]
    push Not
    rfl

/-- The fallbacks agree with the routing exactly when the table is sound for the request. -/
theorem fallbackResponse_agrees_iff :
    (∃ response, fallbackResponse heap handlers method path = .ok (some response) ∧
      FallbackAgrees handlers method path response) ↔
      FallbackSound heap handlers method path := by
  by_cases hhead : method = CString.lit "HEAD"
  · subst hhead
    exact headFallback_iff
  have hliteral : (handlers.any fun it => it.path = some path) = true ↔
      HasLiteral handlers path := by
    simp [HasLiteral]
  simp only [fallbackResponse, hhead, if_false, FallbackAgrees, FallbackSound]
  by_cases hfound : HasLiteral handlers path
  · rw [if_pos (hliteral.mpr hfound)]
    -- a page for the methods, with the status that goes with the method of the request
    have hstatus : ∀ response,
        (if method = CString.lit "OPTIONS" then
            (checkAllowedResponses heap .ok handlers (some path)).map some
          else (checkAllowedResponses heap .methodNotAllowed handlers (some path)).map some) =
          .ok (some response) ↔
        checkAllowedResponses heap
          (if method = CString.lit "OPTIONS" then .ok else .methodNotAllowed) handlers
          (some path) = .ok response := by
      intro response
      split
      · cases checkAllowedResponses heap .ok handlers (some path) <;> simp [Except.map]
      · cases checkAllowedResponses heap .methodNotAllowed handlers (some path) <;>
          simp [Except.map]
    simp only [hstatus]
    by_cases hnone : takers handlers path = []
    · simp only [hnone, if_true, hfound, not_true_eq_false, false_and, iff_false, not_exists,
        not_and]
      intro response h hcode
      rw [checkAllowedResponses_status h] at hcode
      split at hcode <;> cases hcode
    · simp only [hnone, if_false, hfound, true_and]
      rw [checkAllowedResponses_iff (by split <;> simp)]
      refine and_congr_right fun _ => ?_
      by_cases hoptions : method = CString.lit "OPTIONS" <;> simp [hoptions]
  · rw [if_neg (mt hliteral.mp hfound)]
    have hpage : (∃ response, redhttpResponseNewErrorPage heap .notFound [] = some response) ↔
        PageGranted heap .notFound [] := errorPage_granted_iff (by decide)
    by_cases hnone : takers handlers path = []
    · simp only [hnone, if_true, hfound, not_false_eq_true, true_and, Except.ok.injEq]
      rw [← hpage]
      exact exists_congr fun response => and_iff_left_of_imp fun h => (errorPage_spec h).1
    · simp only [hnone, if_false, hfound, false_and, iff_false, not_exists, not_and,
        Except.ok.injEq]
      intro response h hstatus
      rw [(errorPage_spec h).1] at hstatus
      split at hstatus <;> cases hstatus

variable {c c' : Conn A} {asked wanted : CString}

/-- A request that no handler answers gets what the handlers of its path make of it, exactly
when the table is sound for it. -/
theorem dispatchRequest_fallback_iff (hasked : c.request.method = some asked)
    (hwanted : c.request.path = some wanted) (hstar : wanted ≠ CString.lit "*")
    (hnone : tryRoutes handlers c = .ok none c') (hmethod : c'.request.method = some method)
    (hpath : c'.request.path = some path) :
    (∃ response c'', redhttpServerDispatchRequest heap handlers c = .ok (some response) c'' ∧
      FallbackAgrees handlers method path response) ↔
      FallbackSound heap handlers method path := by
  have hrun : redhttpServerDispatchRequest heap handlers c =
      match fallbackResponse heap handlers method path with
      | .ok response => .ok response c'
      | .error e => .error e c' := by
    simp only [redhttpServerDispatchRequest, answerFallback, bind_apply, get_apply, hasked,
      hwanted, hstar, if_false, hnone, hmethod, hpath]
    cases fallbackResponse heap handlers method path <;> rfl
  rw [← fallbackResponse_agrees_iff, hrun]
  cases fallbackResponse heap handlers method path with
  | error e => simp
  | ok response => simp

/-- A table with one handler for GET, which answers. -/
def helloHandlers (path : String) : List (Handler Unit) :=
  [⟨some (CString.lit "GET"), some (CString.lit path), pure (some (redhttpResponseNewEmpty .ok))⟩]

/-- A request for the head of what is at a path. -/
def headConn (path : String) : Conn Unit :=
  ⟨{ method := some (CString.lit "HEAD"), path := some (CString.lit path) }, ()⟩

theorem dispatchRequest_fallback_literal :
    ∃ response c'', redhttpServerDispatchRequest ⟨fun _ => true, fun _ => 0⟩
        (helloHandlers "/hello") (headConn "/hello") = .ok (some response) c'' ∧
      FallbackAgrees (helloHandlers "/hello") (CString.lit "HEAD") (CString.lit "/hello")
        response := by
  refine (dispatchRequest_fallback_iff rfl rfl (by decide) rfl rfl rfl).mpr ?_
  rw [FallbackSound, if_pos rfl]
  exact fun _ => ⟨_, List.mem_singleton_self _, rfl, rfl⟩

/-- A path that only a glob takes has no head. -/
theorem dispatchRequest_fallback_glob :
    tryRoutes (helloHandlers "/hello/*") (headConn "/hello/world") =
        .ok none (headConn "/hello/world") ∧
      redhttpServerDispatchRequest ⟨fun _ => true, fun _ => 0⟩ (helloHandlers "/hello/*")
        (headConn "/hello/world") =
          .ok (some (redhttpResponseNewEmpty .notFound)) (headConn "/hello/world") ∧
      ¬ FallbackAgrees (helloHandlers "/hello/*") (CString.lit "HEAD")
        (CString.lit "/hello/world") (redhttpResponseNewEmpty .notFound) := by
  refine ⟨rfl, rfl, ?_⟩
  rw [FallbackAgrees, if_pos rfl]
  rintro (⟨hstatus, -⟩ | ⟨-, hall⟩)
  · cases hstatus
  · have htaker : (helloHandlers "/hello/*").head (by simp [helloHandlers]) ∈
        takers (helloHandlers "/hello/*") (CString.lit "/hello/world") :=
      (mem_takers_iff_matchRoute (List.head_mem _) rfl rfl (by decide)
        (r := { (headConn "/hello/world").request with method := some (CString.lit "GET") })
        rfl rfl rfl).mpr ⟨_, rfl⟩
    exact hall _ htaker rfl

end Fallback

end RedStore.RedHttp
