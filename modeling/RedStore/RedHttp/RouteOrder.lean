/-
The order of the routes in a table.

`redhttp_server_dispatch_request` tries the handlers in the order in which they were added.  Of
some routes that no request matches two of, at most one is ever taken, so their order among
themselves does not show: neither in the answer, nor in what the request and the application look
like behind it.
-/
import RedStore.RedHttp.Routes

namespace RedStore.RedHttp
open CLib

variable {A : Type} {method path : CString} {it it' : Handler A} {c : Conn A}
  {rest rest' : List (Handler A)}

/-- A connection with a request for a method and a path. -/
def RequestFor (method path : CString) (c : Conn A) : Prop :=
  c.request.method = some method ∧ c.request.path = some path

/-- No request matches both routes. -/
def Exclusive (it it' : Handler A) : Prop :=
  ∀ method path, routeMismatch method path it = true ∨ routeMismatch method path it' = true

lemma Exclusive.symm (h : Exclusive it it') : Exclusive it' it :=
  fun method path => (h method path).symm

/-- A handler that is not for the requests there are, or that leaves their method and their path
alone when it declines. -/
def KeepsRoute (method path : CString) (it : Handler A) : Prop :=
  (∀ c : Conn A, RequestFor method path c → matchRoute it c.request = .ok false c.request) ∨
    ∀ c c' : Conn A, RequestFor method path c → it.func c = .ok none c' → RequestFor method path c'

/-! ### One route -/

lemma requestFor_of_matchRoute {b : Bool} {r : Request} (h : RequestFor method path c)
    (hrun : matchRoute it c.request = .ok b r) : RequestFor method path { c with request := r } := by
  have hmethod : Keeps Request.method (matchRoute it) := keeps_matchRoute (fun _ _ => rfl) it
  have hpath : Keeps Request.path (matchRoute it) := keeps_matchRoute (fun _ _ => rfl) it
  have hm := hmethod c.request
  have hp := hpath c.request
  rw [hrun, stateOf_ok] at hm hp
  exact ⟨hm.trans h.1, hp.trans h.2⟩

/-- What comes behind a route only matters for the requests that come behind it. -/
lemma tryRoutes_congr (hkeeps : KeepsRoute method path it) (h : RequestFor method path c)
    (hrest : ∀ d, RequestFor method path d → tryRoutes rest d = tryRoutes rest' d) :
    tryRoutes (it :: rest) c = tryRoutes (it :: rest') c := by
  rw [tryRoutes, tryRoutes]
  cases hmatch : matchRoute it c.request with
  | error e r =>
    have hrun : onRequest (matchRoute it) c = .error e { c with request := r } := by
      rw [onRequest, hmatch]
    rw [bind_of_error hrun, bind_of_error hrun]
  | ok b r =>
    have hrun : onRequest (matchRoute it) c = .ok b { c with request := r } := by
      rw [onRequest, hmatch]
    have hthere := requestFor_of_matchRoute h hmatch
    rw [bind_of_ok hrun, bind_of_ok hrun]
    cases b with
    | false => exact hrest _ hthere
    | true =>
      rcases hkeeps with hskip | hkeeps
      · rw [hskip c h] at hmatch
        cases hmatch
      · simp only [if_true]
        cases hfunc : it.func { c with request := r } with
        | error e d => rw [bind_of_error hfunc, bind_of_error hfunc]
        | ok response d =>
          rw [bind_of_ok hfunc, bind_of_ok hfunc]
          cases response with
          | some response => rfl
          | none => exact hrest d (hkeeps _ d hthere hfunc)

/-- A route that does not match is passed over. -/
lemma tryRoutes_of_mismatch (h : RequestFor method path c)
    (hmismatch : routeMismatch method path it = true) :
    tryRoutes (it :: rest) c = tryRoutes rest c := by
  have hrun : onRequest (matchRoute it) c = .ok false c := by
    rw [onRequest, matchRoute_of_mismatch h.1 h.2 hmismatch]
  rw [tryRoutes, bind_of_ok hrun]
  rfl

/-- Two routes that exclude each other change places. -/
lemma tryRoutes_swap (hapart : Exclusive it it') (hkeeps : KeepsRoute method path it)
    (hkeeps' : KeepsRoute method path it') (h : RequestFor method path c) :
    tryRoutes (it :: it' :: rest) c = tryRoutes (it' :: it :: rest) c := by
  rcases hapart method path with hmismatch | hmismatch
  · rw [tryRoutes_of_mismatch h hmismatch]
    exact tryRoutes_congr hkeeps' h fun d hd => (tryRoutes_of_mismatch hd hmismatch).symm
  · rw [tryRoutes_of_mismatch h hmismatch]
    exact tryRoutes_congr hkeeps h fun d hd => tryRoutes_of_mismatch hd hmismatch

/-! ### A table -/

/-- In front of the same routes, routes that exclude each other may stand in any order. -/
lemma tryRoutes_perm {routes routes' : List (Handler A)} (hperm : routes.Perm routes')
    (hapart : routes.Pairwise Exclusive) (hkeeps : ∀ it ∈ routes, KeepsRoute method path it)
    (h : RequestFor method path c) :
    tryRoutes (routes ++ rest) c = tryRoutes (routes' ++ rest) c := by
  induction hperm generalizing c with
  | nil => rfl
  | cons it hperm ih =>
    exact tryRoutes_congr (hkeeps it (by simp)) h fun d hd =>
      ih hapart.of_cons (fun other hother => hkeeps other (by simp [hother])) hd
  | swap it it' routes =>
    have hpair : Exclusive it' it := List.rel_of_pairwise_cons hapart (by simp)
    exact tryRoutes_swap hpair (hkeeps it' (by simp)) (hkeeps it (by simp)) h
  | trans hperm hperm' ih ih' =>
    have hapart' := (hperm.pairwise_iff Exclusive.symm).mp hapart
    exact (ih hapart hkeeps h).trans
      (ih' hapart' (fun other hother => hkeeps other (hperm.mem_iff.mpr hother)) h)

/-! ### Patterns that exclude each other -/

/-- No path matches both patterns: two that are different and without an asterisk, or one with an
asterisk and one without that does not begin as it does. -/
def patternsApart (pattern pattern' : List UInt8) : Bool :=
  match pattern.getLast?, pattern'.getLast? with
  | some last, some last' =>
    if last = ch '*' then last' ≠ ch '*' && !pattern.dropLast.isPrefixOf pattern'
    else if last' = ch '*' then !pattern'.dropLast.isPrefixOf pattern
    else pattern ≠ pattern'
  | _, _ => false

/-- Routes that no request matches both of, as their methods and patterns show. -/
def routesApart (key key' : Option CString × Option CString) : Bool :=
  match key, key' with
  | (some method, some pattern), (some method', some pattern') =>
    method != method' || patternsApart pattern.bytes pattern'.bytes
  | _, _ => false

/-- What a pattern does not take. -/
lemma matchPath_eq_none {pattern path : List UInt8} {last : UInt8}
    (hlast : pattern.getLast? = some last)
    (hstar : last = ch '*' → pattern.dropLast.isPrefixOf path = false) (hne : pattern ≠ path) :
    matchPath pattern path = .ok none := by
  have hnot : ¬ (last = ch '*' ∧ pattern.dropLast.isPrefixOf path = true) := by
    rintro ⟨heq, hbegins⟩
    rw [hstar heq] at hbegins
    cases hbegins
  simp only [matchPath, hlast]
  rw [if_neg hnot, if_neg hne]

/-- A pattern with an asterisk and one without that does not begin as it does. -/
lemma matchPath_of_star {pattern pattern' : List UInt8} {last' : UInt8}
    (hlast : pattern.getLast? = some (ch '*')) (hlast' : pattern'.getLast? = some last')
    (hstar : last' ≠ ch '*') (hbegins : pattern.dropLast.isPrefixOf pattern' = false)
    (path : List UInt8) : matchPath pattern path = .ok none ∨ matchPath pattern' path = .ok none := by
  by_cases heq : pattern' = path
  · subst heq
    refine .inl (matchPath_eq_none hlast (fun _ => hbegins) ?_)
    rintro rfl
    rw [hlast] at hlast'
    exact hstar (Option.some.inj hlast').symm
  · exact .inr (matchPath_eq_none hlast' (fun h => absurd h hstar) heq)

lemma matchPath_of_apart {pattern pattern' : List UInt8}
    (h : patternsApart pattern pattern' = true) (path : List UInt8) :
    matchPath pattern path = .ok none ∨ matchPath pattern' path = .ok none := by
  rw [patternsApart] at h
  split at h
  · next last last' hlast hlast' =>
    split at h
    · next hstar =>
      simp only [Bool.and_eq_true, decide_eq_true_eq, Bool.not_eq_true'] at h
      exact matchPath_of_star (hstar ▸ hlast) hlast' h.1 h.2 path
    · next hstar =>
      split at h
      · next hstar' =>
        exact (matchPath_of_star (hstar' ▸ hlast') hlast hstar (by simpa using h) path).symm
      · next hstar' =>
        have hne : pattern ≠ pattern' := by simpa using h
        by_cases heq : pattern = path
        · exact .inr (matchPath_eq_none hlast' (fun h => absurd h hstar') fun h =>
            hne (heq.trans h.symm))
        · exact .inl (matchPath_eq_none hlast (fun h => absurd h hstar) heq)
  · cases h

lemma exclusive_of_apart (h : routesApart (it.method, it.path) (it'.method, it'.path) = true) :
    Exclusive it it' := by
  obtain ⟨itMethod, itPath, func⟩ := it
  obtain ⟨itMethod', itPath', func'⟩ := it'
  intro method path
  match itMethod, itPath, itMethod', itPath' with
  | some m, some pattern, some m', some pattern' =>
    simp only [routesApart, Bool.or_eq_true, bne_iff_ne] at h
    simp only [routeMismatch, Bool.or_eq_true, bne_iff_ne, decide_eq_true_eq]
    by_cases hm : m = method
    · by_cases hm' : m' = method
      · have happart := h.resolve_left fun hne => hne (hm.trans hm'.symm)
        rcases matchPath_of_apart happart path.bytes with hnone | hnone
        · exact .inl (.inr hnone)
        · exact .inr (.inr hnone)
      · exact .inr (.inl hm')
    · exact .inl (.inl hm)

/-- The same of all pairs of a table. -/
lemma pairwise_of_apart {routes : List (Handler A)}
    (h : (routes.map fun it => (it.method, it.path)).Pairwise fun key key' =>
      routesApart key key' = true) : routes.Pairwise Exclusive :=
  (List.pairwise_map.mp h).imp exclusive_of_apart

end RedStore.RedHttp
