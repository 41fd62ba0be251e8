/-
Which handler of the table a request comes to.

The first three handlers take every request and decline it; behind them the table is
searched from a connection with an empty error buffer.  A request to the graph store is the
first to match in the rest of the table, and its handler always answers.
-/
import RedStore.RedHttp.Routes
import RedStore.Service.Main

namespace RedStore.Service
open CLib RedHttp

variable {T R σ : Type} {w : World T R σ}

/-! ### The first three handlers -/

/-- The handlers behind the three that take every request. -/
def requestHandlers (w : World T R σ) : List (Handler (App σ)) := (redstoreHandlers w).drop 3

/-- A connection when the search for its handler begins. -/
def beforeHandlers (c : Conn (App σ)) : Conn (App σ) :=
  { c with app := { c.app with
      requestCount := (c.app.requestCount + 1) % longRange, errorBuffer := none, logged := [] } }

lemma tryRoutes_redstoreHandlers (c : Conn (App σ)) :
    tryRoutes (redstoreHandlers w) c = tryRoutes (requestHandlers w) (beforeHandlers c) := rfl

/-- What a request is answered depends on no message of an earlier request. -/
lemma tryRoutes_reset (r : Request) (app : App σ) (buffer : Option (List UInt8))
    (logged : List LogMessage) :
    tryRoutes (redstoreHandlers w) ⟨r, { app with errorBuffer := buffer, logged }⟩ =
      tryRoutes (redstoreHandlers w) ⟨r, app⟩ := rfl

/-- Where the table answers, the dispatch does. -/
lemma dispatchRequest_of_tryRoutes {c : Conn (App σ)} {method path : CString}
    {x : ServiceM σ (Option Response)} {d : Conn (App σ)}
    (hmethod : c.request.method = some method) (hpath : c.request.path = some path)
    (hstar : path ≠ CString.lit "*") (hroutes : tryRoutes (redstoreHandlers w) c = x d)
    (hanswers : ∀ c', x d ≠ .ok none c') : dispatchRequest w c = x d := by
  simp only [dispatchRequest, redhttpServerDispatchRequest, bind_apply, get_apply, hpath, hmethod,
    hstar, if_false, hroutes]
  cases hrun : x d with
  | error e c' => rfl
  | ok response c' =>
    cases response with
    | none => exact absurd hrun (hanswers c')
    | some response => rfl

/-! ### A route for one path -/

/-- A request for one path is what the first handler of its method and path makes of it, if
that handler answers. -/
lemma dispatchRequest_route_of_answers {c : Conn (App σ)} (it : Handler (App σ))
    (before after : List (Handler (App σ))) {method path : CString}
    (hmethod : c.request.method = some method) (hpath : c.request.path = some path)
    (hsplit : requestHandlers w = before ++ it :: after)
    (hbefore : before.all (routeMismatch method path) = true)
    (hitMethod : it.method = some method) (hitPath : it.path = some path)
    (hliteral : matchPath path.bytes path.bytes = .ok (some none))
    (hstar : path ≠ CString.lit "*") (hanswers : ∀ c', it.func (beforeHandlers c) ≠ .ok none c') :
    dispatchRequest w c = it.func (beforeHandlers c) := by
  have hroutes : tryRoutes (redstoreHandlers w) c = it.func (beforeHandlers c) := by
    rw [tryRoutes_redstoreHandlers, hsplit, tryRoutes_append fun x hx =>
      matchRoute_of_mismatch (r := (beforeHandlers c).request) hmethod hpath
        (List.all_eq_true.mp hbefore x hx)]
    exact tryRoutes_of_answer (c := beforeHandlers c)
      (matchRoute_of_literal hmethod hpath hitMethod hitPath hliteral) hanswers
  exact dispatchRequest_of_tryRoutes hmethod hpath hstar hroutes hanswers

lemma dispatchRequest_route {c : Conn (App σ)} (it : Handler (App σ))
    (before after : List (Handler (App σ))) {method path : CString}
    (hmethod : c.request.method = some method) (hpath : c.request.path = some path)
    (hsplit : requestHandlers w = before ++ it :: after)
    (hbefore : before.all (routeMismatch method path) = true)
    (hitMethod : it.method = some method) (hitPath : it.path = some path)
    (hliteral : matchPath path.bytes path.bytes = .ok (some none))
    (hstar : path ≠ CString.lit "*") (hfunc : AlwaysAnswers it.func) :
    dispatchRequest w c = it.func (beforeHandlers c) :=
  dispatchRequest_route_of_answers it before after hmethod hpath hsplit hbefore hitMethod hitPath
    hliteral hstar (hfunc _)

/-! ### The graph store -/

/-- The methods of the graph store. -/
inductive DataMethod where
  | head | get | put | post | delete
deriving DecidableEq

/-- The name of a method. -/
def DataMethod.name : DataMethod → CString
  | .head => CString.lit "HEAD"
  | .get => CString.lit "GET"
  | .put => CString.lit "PUT"
  | .post => CString.lit "POST"
  | .delete => CString.lit "DELETE"

/-- The handler of a method. -/
def DataMethod.handler (w : World T R σ) : DataMethod → ServiceM σ (Option Response)
  | .head => handleDataHead w
  | .get => handleDataGet w
  | .put => handleDataPut w
  | .post => handleDataPost w
  | .delete => handleDataDelete w

lemma withTarget_alwaysAnswers (onDefault : ServiceM σ Response)
    (onGraph : Node → ServiceM σ Response) : AlwaysAnswers (withTarget w onDefault onGraph) := by
  intro c c'
  exact alwaysAnswers_ite (alwaysAnswers_some _) (alwaysAnswers_ite (alwaysAnswers_some _)
    (alwaysAnswers_ite (alwaysAnswers_some _) (alwaysAnswers_some _))) c c'

lemma handleDataPost_alwaysAnswers : AlwaysAnswers (handleDataPost w) := by
  intro c c'
  exact alwaysAnswers_ite (alwaysAnswers_some _) (alwaysAnswers_ite (alwaysAnswers_some _)
    (alwaysAnswers_ite (alwaysAnswers_some _) (alwaysAnswers_some _))) c c'

lemma DataMethod.alwaysAnswers (m : DataMethod) : AlwaysAnswers (m.handler w) := by
  cases m with
  | head => exact withTarget_alwaysAnswers _ _
  | get => exact withTarget_alwaysAnswers _ _
  | put => exact withTarget_alwaysAnswers _ _
  | post => exact handleDataPost_alwaysAnswers
  | delete => exact withTarget_alwaysAnswers _ _

/-- What `redhttp_request_set_path_glob` makes of a new glob when there was none. -/
def newGlob (glob : CString) : Pointer CString := if glob.strlen = 0 then .null else .valid glob

/-- The connection of a handler of the graph store. -/
def dataConn (c : Conn (App σ)) (suffix : CString) : Conn (App σ) :=
  { beforeHandlers c with request := { c.request with pathGlob := newGlob suffix } }

section Data

variable {r : Request} {suffix : CString} {c : Conn (App σ)}

lemma setPathGlob_of_null (h : r.pathGlob = .null) (glob : CString) :
    redhttpRequestSetPathGlob (some glob) r = .ok () { r with pathGlob := newGlob glob } := by
  simp only [redhttpRequestSetPathGlob, bind_apply, get_apply, h, pure_apply, newGlob]
  split <;> rfl

lemma matchPath_data (suffix : CString) :
    matchPath (CString.lit "/data*").bytes (CString.lit "/data" ++ suffix).bytes =
      .ok (some (some suffix)) := by
  have hlast : (CString.lit "/data*").bytes.getLast? = some (ch '*') := by decide
  have hpre : (CString.lit "/data*").bytes.dropLast = (CString.lit "/data").bytes := by decide
  have hprefix : (CString.lit "/data").bytes.isPrefixOf
      ((CString.lit "/data").bytes ++ suffix.bytes) = true := by
    rw [List.isPrefixOf_iff_prefix]
    exact List.prefix_append _ _
  simp only [matchPath, hlast, hpre, CString.bytes_append, hprefix, and_self, if_true,
    List.drop_left, CString.ofBytes_bytes]

lemma matchPath_not_data {path : CString} (h : ∀ suffix, path ≠ CString.lit "/data" ++ suffix) :
    matchPath (CString.lit "/data*").bytes path.bytes = .ok none := by
  have hlast : (CString.lit "/data*").bytes.getLast? = some (ch '*') := by decide
  have hpre : (CString.lit "/data*").bytes.dropLast = (CString.lit "/data").bytes := by decide
  have hprefix : ¬ (CString.lit "/data").bytes <+: path.bytes := by
    rintro ⟨rest, hrest⟩
    have hnul : (0 : UInt8) ∉ rest := fun h0 =>
      path.nul_free (hrest ▸ List.mem_append_right _ h0)
    exact h ⟨rest, hnul⟩ (CString.ext hrest.symm)
  have hne : (CString.lit "/data*").bytes ≠ path.bytes := fun heq =>
    hprefix (heq ▸ ⟨bytesOf "*", by decide⟩)
  simp only [matchPath, hlast, hpre, List.isPrefixOf_iff_prefix, hprefix, and_false, if_false,
    hne]

/-- The route of a method of the graph store matches the requests with that method. -/
lemma matchRoute_data {A : Type} {m : DataMethod} (m' : DataMethod) (func : ConnM A (Option Response))
    (hmethod : r.method = some m.name) (hpath : r.path = some (CString.lit "/data" ++ suffix))
    (hglob : r.pathGlob = .null) :
    matchRoute ⟨some m'.name, some (CString.lit "/data*"), func⟩ r =
      if m' = m then .ok true { r with pathGlob := newGlob suffix } else .ok false r := by
  have hname : m'.name = m.name ↔ m' = m := by
    cases m <;> cases m' <;> decide
  split
  · next h =>
    subst h
    simp only [matchRoute, bind_apply, get_apply, hmethod, matchMethod, beq_self_eq_true,
      ofExcept_ok, if_true, matchRoutePath, hpath, matchPath_data, setPathGlob_of_null hglob,
      pure_apply]
  · next h => exact matchRoute_of_method rfl hmethod (mt hname.mp h)

/-- The routes in front of those of the graph store. -/
def queryHandlers (w : World T R σ) : List (Handler (App σ)) := (requestHandlers w).take 6

/-- The routes of the graph store. -/
def dataHandlers (w : World T R σ) : List (Handler (App σ)) :=
  [DataMethod.head, .get, .put, .post, .delete].map fun m =>
    ⟨some m.name, some (CString.lit "/data*"), m.handler w⟩

lemma requestHandlers_eq : requestHandlers w =
    queryHandlers w ++ (dataHandlers w ++ (requestHandlers w).drop 11) := rfl

lemma queryHandlers_not_matching {method : CString} (hmethod : r.method = some method)
    (hpath : r.path = some (CString.lit "/data" ++ suffix)) :
    ∀ it ∈ queryHandlers w, matchRoute it r = .ok false r := by
  have hliteral : ∀ pattern ∈ [CString.lit "/query", CString.lit "/sparql", CString.lit "/sparql/"],
      matchPath pattern.bytes (CString.lit "/data" ++ suffix).bytes = .ok none := by
    have hdata : (CString.lit "/data" ++ suffix).bytes.take 2 = bytesOf "/d" := rfl
    have hpatterns : ∀ pattern ∈
        [CString.lit "/query", CString.lit "/sparql", CString.lit "/sparql/"],
        pattern.bytes.take 2 ≠ bytesOf "/d" ∧
          ∃ last ∈ pattern.bytes.getLast?, last ≠ ch '*' := by decide
    intro pattern hpattern
    obtain ⟨hne, last, hlast, hstar⟩ := hpatterns pattern hpattern
    refine matchPath_of_literal hlast hstar fun heq => hne ?_
    rw [heq, hdata]
  have hnot : ∀ it : Handler (App σ), (∃ pattern, it.method = some pattern) →
      (∃ pattern ∈ [CString.lit "/query", CString.lit "/sparql", CString.lit "/sparql/"],
        it.path = some pattern) → matchRoute it r = .ok false r := by
    rintro it ⟨_, hit⟩ ⟨pattern, hpattern, hitPath⟩
    exact matchRoute_of_path hit hitPath hmethod hpath (hliteral pattern hpattern)
  intro it hit
  simp only [queryHandlers, requestHandlers, redstoreHandlers, List.drop_succ_cons, List.drop_zero,
    List.take_succ_cons, List.take_zero, List.mem_cons, List.not_mem_nil, or_false] at hit
  rcases hit with rfl | rfl | rfl | rfl | rfl | rfl <;>
    exact hnot _ ⟨_, rfl⟩ ⟨_, by simp, rfl⟩

/-- The handler of a request to the graph store is the first that matches. -/
lemma tryRoutes_data {m : DataMethod} (hmethod : c.request.method = some m.name)
    (hpath : c.request.path = some (CString.lit "/data" ++ suffix))
    (hglob : c.request.pathGlob = .null) :
    tryRoutes (redstoreHandlers w) c = m.handler w (dataConn c suffix) := by
  have hroute := fun m' => matchRoute_data m' (m'.handler w) hmethod hpath hglob
  rw [tryRoutes_redstoreHandlers, requestHandlers_eq,
    tryRoutes_append (queryHandlers_not_matching (r := (beforeHandlers c).request) hmethod hpath)]
  simp only [dataHandlers, List.map_cons, List.map_nil, List.cons_append, List.nil_append]
  have hskip : ∀ (m' : DataMethod) {rest : List (Handler (App σ))}, m' ≠ m →
      tryRoutes (⟨some m'.name, some (CString.lit "/data*"), m'.handler w⟩ :: rest)
        (beforeHandlers c) = tryRoutes rest (beforeHandlers c) := by
    intro m' rest hne
    refine tryRoutes_of_not_matching ?_
    rw [show (beforeHandlers c).request = c.request from rfl, hroute m', if_neg hne]
  have hmatch : ∀ rest : List (Handler (App σ)),
      tryRoutes (⟨some m.name, some (CString.lit "/data*"), m.handler w⟩ :: rest)
        (beforeHandlers c) = m.handler w (dataConn c suffix) := by
    intro rest
    have hmatching := hroute m
    rw [if_pos rfl] at hmatching
    exact tryRoutes_of_answering (c := beforeHandlers c) hmatching m.alwaysAnswers
  cases m with
  | head => exact hmatch _
  | get =>
    rw [hskip .head (by decide)]
    exact hmatch _
  | put =>
    rw [hskip .head (by decide), hskip .get (by decide)]
    exact hmatch _
  | post =>
    rw [hskip .head (by decide), hskip .get (by decide),
      hskip .put (by decide)]
    exact hmatch _
  | delete =>
    rw [hskip .head (by decide), hskip .get (by decide),
      hskip .put (by decide), hskip .post (by decide)]
    exact hmatch _

end Data

/-- A request to the graph store is what the handler of its method makes of it. -/
theorem dispatchRequest_data {c : Conn (App σ)} {suffix : CString} {m : DataMethod}
    (hmethod : c.request.method = some m.name)
    (hpath : c.request.path = some (CString.lit "/data" ++ suffix))
    (hglob : c.request.pathGlob = .null) :
    dispatchRequest w c = m.handler w (dataConn c suffix) := by
  have hstar : CString.lit "/data" ++ suffix ≠ CString.lit "*" := by
    intro h
    have htake : (CString.lit "/data" ++ suffix).bytes.take 1 = bytesOf "/" := rfl
    rw [h] at htake
    exact absurd htake (by decide)
  exact dispatchRequest_of_tryRoutes hmethod hpath hstar (tryRoutes_data hmethod hpath hglob)
    (m.alwaysAnswers _)

/-! ### The last handler -/

/-- The handlers with a path. -/
def pathHandlers (w : World T R σ) : List (Handler (App σ)) := (requestHandlers w).take 22

lemma requestHandlers_split : requestHandlers w =
    pathHandlers w ++ [route (some "GET") none (removeTrailingSlash w),
      route none none (handleNotFound w)] := rfl

lemma mem_redstoreHandlers_of_path {it : Handler (App σ)} (h : it ∈ pathHandlers w) :
    it ∈ redstoreHandlers w := List.mem_of_mem_drop (List.mem_of_mem_take h)

lemma handleNotFound_alwaysAnswers : AlwaysAnswers (handleNotFound w) := alwaysAnswers_some _

/-- A request that no handler with a path takes, and that is not a GET, comes to the last
handler. -/
lemma dispatchRequest_notFound {c : Conn (App σ)} {method path : CString}
    (hmethod : c.request.method = some method) (hpath : c.request.path = some path)
    (hmiss : ∀ it ∈ pathHandlers w, routeMismatch method path it = true)
    (hget : method ≠ CString.lit "GET") (hstar : path ≠ CString.lit "*") :
    dispatchRequest w c = handleNotFound w (beforeHandlers c) := by
  have hskip : ∀ it ∈ pathHandlers w ++ [route (some "GET") none (removeTrailingSlash w)],
      matchRoute it (beforeHandlers c).request = .ok false (beforeHandlers c).request := by
    intro it hit
    rcases List.mem_append.mp hit with hit | hit
    · exact matchRoute_of_mismatch hmethod hpath (hmiss it hit)
    · obtain rfl := List.mem_singleton.mp hit
      exact matchRoute_of_method rfl hmethod hget.symm
  have hlast : matchRoute (route none none (handleNotFound w)) (beforeHandlers c).request =
      .ok true (beforeHandlers c).request := rfl
  have hroutes : tryRoutes (redstoreHandlers w) c = handleNotFound w (beforeHandlers c) := by
    rw [tryRoutes_redstoreHandlers, requestHandlers_split, List.append_cons, tryRoutes_append hskip]
    exact tryRoutes_of_answering hlast handleNotFound_alwaysAnswers
  exact dispatchRequest_of_tryRoutes hmethod hpath hstar hroutes (handleNotFound_alwaysAnswers _)

/-- The last handler answers 404. -/
lemma handleNotFound_status {c c' : Conn (App σ)} {response : Response}
    (h : handleNotFound w c = .ok (some response) c') : response.status = .notFound :=
  (pageNewWithMessage_of_ok (map_some_eq_ok_iff.mp h)).1

end RedStore.Service
