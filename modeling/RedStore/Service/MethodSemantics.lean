/-
What the table of handlers makes of methods.

The library answers HEAD, OPTIONS and the methods that a path does not have in its fallbacks,
which come behind the handlers.  In the table of the program the last handler takes every
request, so that the fallbacks are never reached: a method that none of the routes of a path has
gets the 404 of the last handler.  Only the graph store has a route for HEAD.
-/
import RedStore.RedHttp.Fallbacks
import RedStore.Service.ErrorPages
import RedStore.Service.Targets

namespace RedStore.Service
open CLib RedHttp

variable {T R σ : Type} {w : World T R σ}

/-! ### The table -/

/-- The methods and paths of the table. -/
def routeTable : List (Option CString × Option CString) :=
  [(none, none), (none, none), (none, none),
    (some "GET", some "/query"), (some "GET", some "/sparql"), (some "GET", some "/sparql/"),
    (some "POST", some "/query"), (some "POST", some "/sparql"), (some "POST", some "/sparql/"),
    (some "HEAD", some "/data*"), (some "GET", some "/data*"), (some "PUT", some "/data*"),
    (some "POST", some "/data*"), (some "DELETE", some "/data*"),
    (some "GET", some "/insert"), (some "POST", some "/insert"),
    (some "GET", some "/delete"), (some "POST", some "/delete"),
    (some "GET", some "/graphs"), (some "GET", some "/load"), (some "POST", some "/load"),
    (some "GET", some "/"), (some "GET", some "/description"), (some "GET", some "/favicon.ico"),
    (some "GET", some "/robots.txt"), (some "GET", none),
    (none, none)].map fun route : Option String × Option String =>
      (route.1.map CString.lit, route.2.map CString.lit)

lemma map_redstoreHandlers :
    (redstoreHandlers w).map (fun it => (it.method, it.path)) = routeTable := rfl

lemma mem_routeTable {it : Handler (App σ)} (h : it ∈ redstoreHandlers w) :
    (it.method, it.path) ∈ routeTable := by
  rw [← map_redstoreHandlers (w := w)]
  exact List.mem_map_of_mem h

/-- The paths of the table. -/
def tablePaths : List CString :=
  ["/query", "/sparql", "/sparql/", "/data*", "/insert", "/delete", "/graphs", "/load", "/",
    "/description", "/favicon.ico", "/robots.txt"].map CString.lit

lemma mem_tablePaths {it : Handler (App σ)} (h : it ∈ redstoreHandlers w) {path : CString}
    (hpath : it.path = some path) : path ∈ tablePaths := by
  have hall : ∀ route ∈ routeTable, ∀ path ∈ route.2, path ∈ tablePaths := by decide
  exact hall _ (mem_routeTable h) path hpath

/-! ### Methods that a path does not have -/

/-- A method that none of the routes for exactly this path has. -/
def MethodMissing (w : World T R σ) (method path : CString) : Prop :=
  (∃ it ∈ redstoreHandlers w, it.path = some path) ∧
    ∀ it ∈ redstoreHandlers w, it.path = some path → it.method ≠ some method

lemma MethodMissing.mismatch {method path : CString} (h : MethodMissing w method path) :
    ∀ it ∈ pathHandlers w, routeMismatch method path it = true := by
  obtain ⟨⟨it₀, hit₀, hpath₀⟩, hmissing⟩ := h
  have hother : ∀ p ∈ tablePaths, ∀ q ∈ tablePaths, p ≠ q → matchPath p.bytes q.bytes = .ok none := by
    decide
  have hboth : ∀ it ∈ pathHandlers w, it.method.isSome = true ∧ it.path.isSome = true := by
    have hall : ∀ route ∈ (routeTable.drop 3).take 22,
        route.1.isSome = true ∧ route.2.isSome = true := by decide
    intro it hit
    exact hall (it.method, it.path) (List.mem_map_of_mem (f := fun it => (it.method, it.path)) hit)
  intro it hit
  obtain ⟨⟨pattern, hpattern⟩, pathPattern, hpathPattern⟩ :=
    (hboth it hit).imp Option.isSome_iff_exists.mp Option.isSome_iff_exists.mp
  have hmem := mem_redstoreHandlers_of_path hit
  simp only [routeMismatch, hpattern, hpathPattern, Bool.or_eq_true, bne_iff_ne, ne_eq,
    decide_eq_true_eq]
  by_cases heq : pathPattern = path
  · refine Or.inl fun hm => ?_
    exact hmissing it hmem (heq ▸ hpathPattern) (hm ▸ hpattern)
  · exact Or.inr (hother _ (mem_tablePaths hmem hpathPattern) _ (mem_tablePaths hit₀ hpath₀) heq)

lemma MethodMissing.ne_get {method path : CString} (h : MethodMissing w method path) :
    method ≠ CString.lit "GET" := by
  obtain ⟨⟨it, hit, hpath⟩, hmissing⟩ := h
  rintro rfl
  have hget : ∀ p ∈ tablePaths, (some (CString.lit "GET"), some p) ∈ routeTable := by decide
  have hroute := hget path (mem_tablePaths hit hpath)
  rw [← map_redstoreHandlers (w := w)] at hroute
  obtain ⟨it', hit', heq⟩ := List.mem_map.mp hroute
  simp only [Prod.mk.injEq] at heq
  exact hmissing it' hit' heq.2 heq.1

lemma MethodMissing.ne_star {method path : CString} (h : MethodMissing w method path) :
    path ≠ CString.lit "*" := by
  obtain ⟨⟨it, hit, hpath⟩, -⟩ := h
  rintro rfl
  exact absurd (mem_tablePaths hit hpath) (by decide)

/-- A method that its path does not have gets what the last handler gives. -/
lemma MethodMissing.dispatch {method path : CString} (h : MethodMissing w method path)
    {c : Conn (App σ)} (hmethod : c.request.method = some method)
    (hpath : c.request.path = some path) :
    dispatchRequest w c = handleNotFound w (beforeHandlers c) :=
  dispatchRequest_notFound hmethod hpath h.mismatch h.ne_get h.ne_star

/-! ### HEAD for the graph store -/

/-- The same request with another method. -/
def withMethod (c : Conn (App σ)) (method : CString) : Conn (App σ) :=
  { c with request := { c.request with method := some method } }

/-- A page that is given in one connection is given in every other with the same headers,
arguments and state. -/
lemma pageNewWithMessage_congr {c c₁ c' : Conn (App σ)} {code : Status} {message : List UInt8}
    {response : Response}
    (h : redstorePageNewWithMessage w code message c = .ok response c')
    (hheaders : c.request.headers = c₁.request.headers)
    (harguments : c.request.arguments = c₁.request.arguments) (happ : c.app = c₁.app) :
    ∃ response₁ c₁', redstorePageNewWithMessage w code message c₁ = .ok response₁ c₁' ∧
      response₁.status = code := by
  have hcan := canAnswer_of_ok h
  have hbuffer : (∃ f ∈ htmlFormats, messageFormat c.request = .ok (some f)) →
      BufferReadable w c.app := by
    rintro ⟨f, hf, hformat⟩
    by_contra hnot
    rw [pageNewWithMessage_eq hformat] at h
    simp only [hf, if_true, htmlMessagePage_error hnot] at h
    cases h
  have hformat : messageFormat c₁.request = messageFormat c.request :=
    (messageFormat_congr hheaders harguments).symm
  obtain ⟨response₁, hpage, hstatus⟩ : ∃ response,
      redstorePageNewWithMessage w code message c₁ = .ok response (looked c₁) ∧
        response.status = code :=
    pageNewWithMessage_ok ((canAnswer_congr hheaders harguments).mp hcan) fun hhtml =>
      happ ▸ hbuffer (hformat ▸ hhtml)
  exact ⟨response₁, _, hpage, hstatus⟩

/-- HEAD answers 404 only where the graph is not there. -/
lemma handleDataHead_notFound {c c' : Conn (App σ)} {response : Response}
    (h : handleDataHead w c = .ok (some response) c') (hstatus : response.status = .notFound) :
    ∃ node, requestTarget w c.request = .graph node ∧
      (w.containsContext node c.app.storage).value = false ∧
      redstorePageNewWithMessage w .notFound (bytesOf "Graph not found.")
        (called (urlConn c) (w.containsContext node c.app.storage)) = .ok response c' := by
  have hpage : ∀ {code : Status} {message : List UInt8} {c₁ : Conn (App σ)}, code ≠ .notFound →
      (some <$> redstorePageNewWithMessage w code message) c₁ ≠ .ok (some response) c' := by
    intro code message c₁ hcode hrun
    rw [(pageNewWithMessage_of_ok (map_some_eq_ok_iff.mp hrun)).1] at hstatus
    exact hcode hstatus
  have hok : ∀ {c₁ : Conn (App σ)},
      (some <$> (pure (redhttpResponseNew .ok) : ServiceM σ Response)) c₁ ≠
        .ok (some response) c' := by
    intro c₁ hrun
    have heq := map_some_eq_ok_iff.mp hrun
    simp only [pure_apply, EStateM.Result.ok.injEq] at heq
    rw [← heq.1] at hstatus
    cases hstatus
  rw [handleDataHead, withTarget_apply] at h
  cases htarget : requestTarget w c.request with
  | both =>
    simp only [htarget] at h
    exact absurd h (hpage (by simp))
  | missing =>
    simp only [htarget] at h
    exact absurd h (hpage (by simp))
  | default =>
    simp only [htarget] at h
    exact absurd h hok
  | unnamed =>
    simp only [htarget] at h
    exact absurd h (hpage (by simp))
  | graph node =>
    simp only [htarget] at h
    have hrun := map_some_eq_ok_iff.mp h
    rw [ifContained_apply] at hrun
    refine ⟨node, rfl, ?_⟩
    split at hrun
    · exact absurd (map_some_eq_ok_iff.mpr hrun) hok
    · next hvalue => exact ⟨by simpa using hvalue, hrun⟩

/-- A graph that HEAD does not find is not found by GET. -/
lemma handleDataGet_notFound {c c' : Conn (App σ)} {response : Response} (method : CString)
    (h : handleDataHead w c = .ok (some response) c') (hstatus : response.status = .notFound) :
    ∃ response' c'', handleDataGet w (withMethod c method) = .ok (some response') c'' ∧
      response'.status = .notFound := by
  obtain ⟨node, htarget, hvalue, hpage⟩ := handleDataHead_notFound h hstatus
  have htarget' : requestTarget w (withMethod c method).request = .graph node := htarget
  obtain ⟨response', c'', hpage', hstatus'⟩ : ∃ response' c'',
      redstorePageNewWithMessage w .notFound (bytesOf "Graph not found.")
        (called (urlConn (withMethod c method)) (w.containsContext node c.app.storage)) =
          .ok response' c'' ∧ response'.status = .notFound :=
    pageNewWithMessage_congr hpage rfl rfl rfl
  refine ⟨response', c'', ?_, hstatus'⟩
  rw [handleDataGet, withTarget_apply, htarget']
  dsimp only
  rw [map_some_eq_ok_iff, ifContained_apply]
  have hvalue' : (w.containsContext node (urlConn (withMethod c method)).app.storage).value =
      false := hvalue
  rw [if_neg (by rw [hvalue']; exact Bool.false_ne_true)]
  exact hpage'

/-! ### The two halves of the method semantics -/

/-- A route for GET takes the path. -/
def GetRoute (w : World T R σ) (path : CString) : Prop :=
  ∃ it ∈ redstoreHandlers w, it.method = some (CString.lit "GET") ∧
    ∃ pattern, it.path = some pattern ∧ pathMatches pattern.bytes path.bytes = true

/-- What the library makes of methods, for the requests with a method and a path: a HEAD that
is answered 404 is so because a GET is, and a method that the path does not have gets 405, or
200 for OPTIONS, with the methods of the path in the Allow header. -/
def MethodSemantics (w : World T R σ) (method path : CString) : Prop :=
  ∀ c : Conn (App σ), c.request.method = some method → c.request.path = some path →
    c.request.pathGlob = .null →
    (method = CString.lit "HEAD" → GetRoute w path → ∀ response c',
      dispatchRequest w c = .ok (some response) c' → response.status = .notFound →
        ∃ response' c'', dispatchRequest w (withMethod c (CString.lit "GET")) =
          .ok (some response') c'' ∧ response'.status = .notFound) ∧
    (MethodMissing w method path → ∃ response c', dispatchRequest w c = .ok (some response) c' ∧
      response.status = (if method = CString.lit "OPTIONS" then .ok else .methodNotAllowed) ∧
      ∀ it ∈ redstoreHandlers w, it.path = some path → ∀ name ∈ it.method,
        AllowNames response name)

/-- A route for HEAD or a glob is one of the graph store. -/
lemma data_of_getRoute {path : CString} (h : GetRoute w path)
    (hhead : ¬ MethodMissing w (CString.lit "HEAD") path) :
    ∃ suffix, path = CString.lit "/data" ++ suffix := by
  have hglobs : ∀ p ∈ tablePaths, p.bytes.getLast? = some (ch '*') → p = CString.lit "/data*" := by
    decide
  have hheads : ∀ route ∈ routeTable, route.1 = some (CString.lit "HEAD") →
      route.2 = some (CString.lit "/data*") := by decide
  have hdata : (CString.lit "/data*").bytes.dropLast = (CString.lit "/data").bytes := by decide
  obtain ⟨it, hit, -, pattern, hpattern, hmatch⟩ := h
  simp only [pathMatches, Bool.or_eq_true, Bool.and_eq_true, beq_iff_eq] at hmatch
  rcases hmatch with ⟨hlast, hprefix⟩ | hsame
  · obtain rfl := hglobs pattern (mem_tablePaths hit hpattern) hlast
    rw [hdata, List.isPrefixOf_iff_prefix] at hprefix
    obtain ⟨rest, hrest⟩ := hprefix
    have hnul : (0 : UInt8) ∉ rest := fun h0 => path.nul_free (hrest ▸ List.mem_append_right _ h0)
    exact ⟨⟨rest, hnul⟩, CString.ext hrest.symm⟩
  · obtain rfl : pattern = path := CString.ext hsame
    rw [MethodMissing, not_and] at hhead
    have hsome := hhead ⟨it, hit, hpattern⟩
    push Not at hsome
    obtain ⟨it', hit', hpath', hmethod'⟩ := hsome
    have heq := hheads _ (mem_routeTable hit') hmethod'
    obtain rfl : CString.lit "/data*" = pattern := Option.some.inj (heq.symm.trans hpath')
    exact ⟨CString.lit "*", by decide⟩

/-- The table keeps the method semantics of the library exactly for the methods that a path
has, and for the paths of no route. -/
theorem methodSemantics_iff (app : App σ) (method path : CString) :
    MethodSemantics w method path ↔
      ((∃ it ∈ redstoreHandlers w, it.path = some path) →
        ∃ it ∈ redstoreHandlers w, it.path = some path ∧ it.method = some method) := by
  have hmissing : ((∃ it ∈ redstoreHandlers w, it.path = some path) →
      ∃ it ∈ redstoreHandlers w, it.path = some path ∧ it.method = some method) ↔
        ¬ MethodMissing w method path := by
    rw [MethodMissing, not_and]
    push Not
    rfl
  rw [hmissing]
  constructor
  · intro h hmiss
    obtain ⟨response, c', hrun, hstatus, -⟩ :=
      (h ⟨{ method := some method, path := some path }, app⟩ rfl rfl rfl).2 hmiss
    rw [hmiss.dispatch rfl rfl] at hrun
    rw [handleNotFound_status hrun] at hstatus
    split at hstatus <;> cases hstatus
  · intro h c hmethod hpath hglob
    refine ⟨?_, fun hmiss => absurd hmiss h⟩
    rintro rfl hroute response c' hrun hstatus
    obtain ⟨suffix, rfl⟩ := data_of_getRoute hroute h
    rw [dispatchRequest_data (m := .head) hmethod hpath hglob] at hrun
    have hget : (withMethod c (CString.lit "GET")).request.method = some DataMethod.get.name := rfl
    rw [dispatchRequest_data (m := .get) hget hpath hglob]
    exact handleDataGet_notFound (CString.lit "GET") hrun hstatus

/-- A request for the query page. -/
def queryConn (method : String) : Conn (App MemoryStore) where
  request :=
    { method := some (CString.lit method)
      path := some (CString.lit "/query")
      pathAndQuery := some (CString.lit "/query") }
  app := emptyApp

/-- HEAD for the query page is answered 404, and so is OPTIONS. -/
theorem queryPage_methods :
    GetRoute memoryWorld (CString.lit "/query") ∧
      outcome (dispatchRequest memoryWorld (queryConn "GET")) = some (.ok, []) ∧
      outcome (dispatchRequest memoryWorld (queryConn "HEAD")) = some (.notFound, []) ∧
      outcome (dispatchRequest memoryWorld (queryConn "OPTIONS")) = some (.notFound, []) ∧
      ¬ MethodSemantics memoryWorld (CString.lit "HEAD") (CString.lit "/query") ∧
      ¬ MethodSemantics memoryWorld (CString.lit "OPTIONS") (CString.lit "/query") := by
  have hroute : route (some "GET") (some "/query") (handleQuery memoryWorld) ∈
      redstoreHandlers memoryWorld := by simp [redstoreHandlers]
  have hget : outcome (dispatchRequest memoryWorld (queryConn "GET")) = some (.ok, []) := by
    decide +kernel
  have hhead : outcome (dispatchRequest memoryWorld (queryConn "HEAD")) = some (.notFound, []) := by
    decide +kernel
  have hoptions : outcome (dispatchRequest memoryWorld (queryConn "OPTIONS")) =
      some (.notFound, []) := by decide +kernel
  refine ⟨⟨_, hroute, rfl, CString.lit "/query", rfl, by decide⟩, hget, hhead, hoptions, ?_, ?_⟩
  · intro h
    obtain ⟨response, c', hrun, hstatus, -⟩ := outcome_eq_some_iff.mp hhead
    obtain ⟨response', c'', hrun', hstatus'⟩ :=
      (h (queryConn "HEAD") rfl rfl rfl).1 rfl ⟨_, hroute, rfl, CString.lit "/query", rfl, by decide⟩
        response c' hrun hstatus
    obtain ⟨response₂, c₂, hrun₂, hstatus₂, -⟩ := outcome_eq_some_iff.mp hget
    rw [show withMethod (queryConn "HEAD") (CString.lit "GET") = queryConn "GET" from rfl, hrun₂]
      at hrun'
    simp only [EStateM.Result.ok.injEq, Option.some.injEq] at hrun'
    rw [← hrun'.1, hstatus₂] at hstatus'
    cases hstatus'
  · intro h
    obtain ⟨response, c', hrun, hstatus, -⟩ := outcome_eq_some_iff.mp hoptions
    have hmissing : MethodMissing memoryWorld (CString.lit "OPTIONS") (CString.lit "/query") := by
      have hall : ∀ route ∈ routeTable, route.2 = some (CString.lit "/query") →
          route.1 ≠ some (CString.lit "OPTIONS") := by decide
      exact ⟨⟨_, hroute, rfl⟩, fun it hit hpath => hall _ (mem_routeTable hit) hpath⟩
    obtain ⟨response', c'', hrun', hstatus', -⟩ := (h (queryConn "OPTIONS") rfl rfl rfl).2 hmissing
    rw [hrun] at hrun'
    simp only [EStateM.Result.ok.injEq, Option.some.injEq] at hrun'
    rw [← hrun'.1, hstatus] at hstatus'
    split at hstatus' <;> cases hstatus'

end RedStore.Service
