/-
Which handlers of a table a request comes to.

A handler matches by its method and its path.  The table is searched in order: handlers that
do not match are passed over, and the first one that matches and answers ends the search.
-/
import RedStore.RedHttp.Server

namespace RedStore.RedHttp
open CLib

variable {A : Type}

/-! ### Paths -/

/-- A pattern takes a path: by what is in front of a final asterisk, or as a whole. -/
def pathMatches (pattern path : List UInt8) : Bool :=
  (pattern.getLast? == some (ch '*') && pattern.dropLast.isPrefixOf path) || pattern == path

lemma matchPath_of_not_matches {pattern path : List UInt8} (hne : pattern ≠ [])
    (h : pathMatches pattern path = false) : matchPath pattern path = .ok none := by
  simp only [pathMatches, Bool.or_eq_false_iff, beq_eq_false_iff_ne] at h
  rw [matchPath, List.getLast?_eq_some_getLast hne]
  rw [List.getLast?_eq_some_getLast hne] at h
  have hstar : ¬ (pattern.getLast hne = ch '*' ∧ pattern.dropLast.isPrefixOf path = true) := by
    rintro ⟨hlast, hprefix⟩
    simp [hlast, hprefix] at h
  simp only [hstar, if_false, h.2]

/-- A pattern that takes a path sets a glob or none. -/
lemma matchPath_of_matches {pattern path : List UInt8} (hne : pattern ≠ [])
    (h : pathMatches pattern path = true) : ∃ glob, matchPath pattern path = .ok (some glob) := by
  simp only [pathMatches, Bool.or_eq_true, Bool.and_eq_true, beq_iff_eq] at h
  rw [matchPath, List.getLast?_eq_some_getLast hne]
  rw [List.getLast?_eq_some_getLast hne] at h
  by_cases hstar : pattern.getLast hne = ch '*' ∧ pattern.dropLast.isPrefixOf path = true
  · exact ⟨_, if_pos hstar⟩
  · rcases h with ⟨hlast, hprefix⟩ | heq
    · exact absurd ⟨Option.some.inj hlast, hprefix⟩ hstar
    · exact ⟨none, (if_neg hstar).trans (if_pos heq)⟩

/-! ### Matching leaves the rest of a request alone -/

section Keeps

variable {γ : Type} {proj : Request → γ}
  (hproj : ∀ (r : Request) (pathGlob : Pointer CString), proj { r with pathGlob } = proj r)
include hproj

lemma keeps_setPathGlob (glob : Option CString) : Keeps proj (redhttpRequestSetPathGlob glob) := by
  have hkept : ∀ kept : Pointer CString,
      Keeps proj (modify fun r => { r with pathGlob := kept } : RequestM Unit) :=
    fun kept => keeps_modify fun r => hproj r kept
  refine keeps_bind keeps_get fun r => ?_
  dsimp only
  cases glob with
  | none =>
    cases r.pathGlob with
    | null => exact keeps_bind (keeps_pure Pointer.null) hkept
    | valid _ => exact keeps_bind (keeps_pure Pointer.freed) hkept
    | freed => exact keeps_bind (keeps_throw Fault.useAfterFree) hkept
  | some glob =>
    have hset : ∀ kept : Pointer CString, Keeps proj
        (if glob.strlen = 0 then modify fun r => { r with pathGlob := kept }
          else modify fun r => { r with pathGlob := .valid glob } : RequestM Unit) :=
      fun kept => keeps_ite (hkept kept) (keeps_modify fun r => hproj r (.valid glob))
    cases r.pathGlob with
    | null => exact keeps_bind (keeps_pure Pointer.null) hset
    | valid _ => exact keeps_bind (keeps_pure Pointer.freed) hset
    | freed => exact keeps_bind (keeps_throw Fault.useAfterFree) hset

lemma keeps_matchRoute (handler : Handler A) : Keeps proj (matchRoute handler) := by
  intro r
  rcases matchRoute_cases handler r with ⟨b, hrun⟩ | ⟨e, hrun⟩ | ⟨glob, hrun⟩
  · rw [hrun]
    rfl
  · rw [hrun]
    rfl
  · rw [hrun]
    exact keeps_bind (keeps_setPathGlob hproj (some glob)) (fun _ => keeps_pure true) r

end Keeps

/-! ### Routes that do not match -/

lemma matchRoute_of_method {it : Handler A} {r : Request} {pattern method : CString}
    (hpattern : it.method = some pattern) (hmethod : r.method = some method)
    (hne : pattern ≠ method) : matchRoute it r = .ok false r := by
  simp only [matchRoute, bind_apply, get_apply, hpattern, hmethod, matchMethod, ofExcept_ok,
    beq_eq_false_iff_ne.mpr hne, Bool.false_eq_true, if_false, pure_apply]

lemma matchPath_of_literal {pattern path : List UInt8} {last : UInt8}
    (hlast : pattern.getLast? = some last) (hstar : last ≠ ch '*') (hne : pattern ≠ path) :
    matchPath pattern path = .ok none := by
  simp only [matchPath, hlast, hstar, false_and, if_false, hne]

lemma matchRoute_of_path {it : Handler A} {r : Request}
    {pattern pathPattern method path : CString} (hpattern : it.method = some pattern)
    (hpathPattern : it.path = some pathPattern) (hmethod : r.method = some method)
    (hpath : r.path = some path)
    (h : matchPath pathPattern.bytes path.bytes = .ok none) : matchRoute it r = .ok false r := by
  simp only [matchRoute, bind_apply, get_apply, hpattern, hmethod, matchMethod, ofExcept_ok,
    matchRoutePath, hpathPattern, hpath, h]
  split <;> rfl

/-- The method or the path of a route is not that of a request. -/
def routeMismatch (method path : CString) (it : Handler A) : Bool :=
  match it.method, it.path with
  | some pattern, some pathPattern =>
    pattern != method || decide (matchPath pathPattern.bytes path.bytes = .ok none)
  | _, _ => false

lemma matchRoute_of_mismatch {it : Handler A} {r : Request} {method path : CString}
    (hmethod : r.method = some method) (hpath : r.path = some path)
    (h : routeMismatch method path it = true) : matchRoute it r = .ok false r := by
  obtain ⟨itMethod, itPath, func⟩ := it
  match itMethod, itPath with
  | some pattern, some pathPattern =>
    simp only [routeMismatch, Bool.or_eq_true, bne_iff_ne, decide_eq_true_eq] at h
    rcases h with h | h
    · exact matchRoute_of_method rfl hmethod h
    · exact matchRoute_of_path rfl rfl hmethod hpath h
  | some pattern, none => simp [routeMismatch] at h
  | none, _ => simp [routeMismatch] at h

/-- A route for one path matches it. -/
lemma matchRoute_of_literal {it : Handler A} {r : Request} {method path : CString}
    (hmethod : r.method = some method) (hpath : r.path = some path)
    (hitMethod : it.method = some method) (hitPath : it.path = some path)
    (h : matchPath path.bytes path.bytes = .ok (some none)) : matchRoute it r = .ok true r := by
  simp only [matchRoute, bind_apply, get_apply, hitMethod, hmethod, matchMethod, beq_self_eq_true,
    ofExcept_ok, if_true, matchRoutePath, hitPath, hpath, h, pure_apply]

/-- A route without a path takes all requests with its method. -/
lemma matchRoute_of_anyPath {it : Handler A} {r : Request} {method : CString}
    (hmethod : r.method = some method) (hitMethod : it.method = some method)
    (hitPath : it.path = none) : matchRoute it r = .ok true r := by
  simp only [matchRoute, bind_apply, get_apply, hitMethod, hmethod, matchMethod, beq_self_eq_true,
    ofExcept_ok, if_true, matchRoutePath, hitPath, pure_apply]

/-! ### One handler after the other -/

section Routes

variable {it : Handler A} {rest : List (Handler A)} {c : Conn A}

lemma tryRoutes_of_not_matching (h : matchRoute it c.request = .ok false c.request) :
    tryRoutes (it :: rest) c = tryRoutes rest c := by
  have hskip : onRequest (matchRoute it) c = .ok false c := by simp only [onRequest, h]
  rw [tryRoutes, bind_of_ok hskip]
  rfl

lemma tryRoutes_of_matching {r : Request} (h : matchRoute it c.request = .ok true r) :
    tryRoutes (it :: rest) c =
      match it.func { c with request := r } with
      | .ok (some response) c' => .ok (some response) c'
      | .ok none c' => tryRoutes rest c'
      | .error e c' => .error e c' := by
  have hmatch : onRequest (matchRoute it) c = .ok true { c with request := r } := by
    simp only [onRequest, h]
  rw [tryRoutes, bind_of_ok hmatch]
  simp only [if_true, bind_apply]
  cases it.func { c with request := r } with
  | error e c' => rfl
  | ok response c' => cases response <;> rfl

/-- Handlers that do not match are passed over. -/
lemma tryRoutes_append {before : List (Handler A)}
    (h : ∀ it ∈ before, matchRoute it c.request = .ok false c.request) :
    tryRoutes (before ++ rest) c = tryRoutes rest c := by
  induction before with
  | nil => rfl
  | cons it before ih =>
    rw [List.cons_append, tryRoutes_of_not_matching (h it (by simp))]
    exact ih fun it hit => h it (by simp [hit])

end Routes

/-! ### Handlers that always answer -/

/-- A handler that answers in every branch that does not fault. -/
def AlwaysAnswers (x : ConnM A (Option Response)) : Prop := ∀ c c', x c ≠ .ok none c'

lemma alwaysAnswers_some (x : ConnM A Response) : AlwaysAnswers (some <$> x) := by
  intro c c' h
  obtain ⟨_, -, hnone⟩ := map_eq_ok_iff.mp h
  cases hnone

lemma alwaysAnswers_ite {b : Prop} [Decidable b] {x y : ConnM A (Option Response)}
    (hx : AlwaysAnswers x) (hy : AlwaysAnswers y) : AlwaysAnswers (if b then x else y) := by
  split
  · exact hx
  · exact hy

/-- Behind a handler that matches and answers, the table does not matter. -/
lemma tryRoutes_of_answer {it : Handler A} {rest : List (Handler A)} {c : Conn A} {r : Request}
    (h : matchRoute it c.request = .ok true r)
    (hanswers : ∀ c', it.func { c with request := r } ≠ .ok none c') :
    tryRoutes (it :: rest) c = it.func { c with request := r } := by
  rw [tryRoutes_of_matching h]
  cases hrun : it.func { c with request := r } with
  | error e c' => rfl
  | ok response c' =>
    cases response with
    | none => exact absurd hrun (hanswers c')
    | some response => rfl

lemma tryRoutes_of_answering {it : Handler A} {rest : List (Handler A)} {c : Conn A} {r : Request}
    (h : matchRoute it c.request = .ok true r) (hfunc : AlwaysAnswers it.func) :
    tryRoutes (it :: rest) c = it.func { c with request := r } := tryRoutes_of_answer h (hfunc _)

end RedStore.RedHttp
