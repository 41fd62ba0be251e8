/-
The glob that a handler finds.

A route whose pattern ends in an asterisk leaves the rest of the path behind as the glob of the
request.  The glob belongs to the request, so a route that matches and then declines leaves its
glob to the routes after it: one that leaves nothing over finds the old glob, or what
`redhttp_request_set_path_glob` has freed of it.  The search for a route is followed here from
one handler to the next.
-/
import RedStore.RedHttp.Routes
import Mathlib.Logic.Relation

namespace RedStore.RedHttp
open CLib

variable {A : Type} {it : Handler A} {r r' : Request}

/-! ### What a pattern leaves over -/

/-- The part of a path behind what is in front of the final asterisk of a pattern. -/
def leftOver (pattern path : Option CString) : Option CString :=
  match pattern, path with
  | some pattern, some path =>
    if pattern.bytes.getLast? = some (ch '*') ∧ pattern.bytes.dropLast.isPrefixOf path.bytes then
      let rest := path.bytes.drop pattern.bytes.dropLast.length
      if rest = [] then none else some (CString.ofBytes rest)
    else none
  | _, _ => none

/-- The glob that belongs to a handler: NULL if its pattern leaves nothing over. -/
def ownGlob (pattern path : Option CString) : Pointer CString :=
  (leftOver pattern path).elim .null .valid

/-- The method of a route is that of a request. -/
def MethodFits (it : Handler A) (r : Request) : Prop := it.method = none ∨ it.method = r.method

/-- The path of a route is that of a request. -/
def takesPath (pattern path : Option CString) : Bool :=
  match pattern, path with
  | none, _ => true
  | some pattern, some path => pathMatches pattern.bytes path.bytes
  | some _, none => false

/-- Matching stays inside the strings of the handler and of the request, and a handler that
matches finds the glob that belongs to it. -/
def FindsOwnGlob (it : Handler A) (r : Request) : Prop :=
  ∃ b r', matchRoute it r = .ok b r' ∧
    (b = true → r'.pathGlob = ownGlob it.path r'.path)

/-- The request is ready for a handler: there is a string wherever `match_route` reads one, the
pattern is not empty, no glob is left from before if the pattern leaves nothing over, and else
none that has been freed. -/
structure GlobReady (it : Handler A) (r : Request) : Prop where
  method_ne : it.method ≠ none → r.method ≠ none
  path_ne : MethodFits it r → it.path ≠ none → r.path ≠ none
  pattern_ne : MethodFits it r → it.path ≠ some default
  null : MethodFits it r → takesPath it.path r.path = true → leftOver it.path r.path = none →
    r.pathGlob = .null
  sound : MethodFits it r → leftOver it.path r.path ≠ none → r.pathGlob ≠ .freed

/-! ### One route -/

lemma matchRoute_of_methodFits (h : MethodFits it r) :
    matchRoute it r = matchRoutePath it.path r.path r := by
  have hmethod : matchMethod it.method r.method = .ok true := by
    rcases h with h | h
    · rw [h]
      rfl
    · rw [h]
      cases r.method with
      | none => rfl
      | some method => simp [matchMethod]
  simp only [matchRoute, bind_apply, get_apply, hmethod, ofExcept_ok, if_true]

lemma matchRoute_of_not_methodFits (h : ¬ MethodFits it r) :
    it.method ≠ none ∧ (r.method = none ∧ matchRoute it r = .error .nullPointer r ∨
      r.method ≠ none ∧ matchRoute it r = .ok false r) := by
  rw [MethodFits, not_or] at h
  refine ⟨h.1, ?_⟩
  obtain ⟨pattern, hpattern⟩ := Option.ne_none_iff_exists'.mp h.1
  cases hmethod : r.method with
  | none =>
    refine Or.inl ⟨rfl, ?_⟩
    simp only [matchRoute, bind_apply, get_apply, hpattern, hmethod, matchMethod,
      ofExcept_error]
  | some method =>
    refine Or.inr ⟨by simp, matchRoute_of_method hpattern hmethod ?_⟩
    rintro rfl
    exact h.2 (hpattern.trans hmethod.symm)

/-- A pattern does not take a path, or takes it as a whole, with nothing left over behind its
asterisk, or with a rest. -/
lemma matchPath_cases {pattern : CString} (path : CString) (hne : pattern ≠ default) :
    (matchPath pattern.bytes path.bytes = .ok none ∧
      takesPath (some pattern) (some path) = false ∧ leftOver (some pattern) (some path) = none) ∨
    (∃ glob : Option CString, matchPath pattern.bytes path.bytes = .ok (some glob) ∧
      (glob = none ∨ glob = some default) ∧
      takesPath (some pattern) (some path) = true ∧ leftOver (some pattern) (some path) = none) ∨
    ∃ glob : CString, matchPath pattern.bytes path.bytes = .ok (some (some glob)) ∧
      glob.bytes ≠ [] ∧ takesPath (some pattern) (some path) = true ∧
      leftOver (some pattern) (some path) = some glob := by
  have hbytes : pattern.bytes ≠ [] := fun h => hne (CString.ext h)
  have hlast := List.getLast?_eq_some_getLast hbytes
  by_cases hstar : pattern.bytes.getLast hbytes = ch '*' ∧
      pattern.bytes.dropLast.isPrefixOf path.bytes = true
  · have htakes : takesPath (some pattern) (some path) = true := by
      simp [takesPath, pathMatches, hlast, hstar.1, hstar.2]
    have hmatch : matchPath pattern.bytes path.bytes = .ok (some (some
        (CString.ofBytes (path.bytes.drop pattern.bytes.dropLast.length)))) := by
      rw [matchPath, hlast]
      exact if_pos hstar
    have hleft : leftOver (some pattern) (some path) =
        if path.bytes.drop pattern.bytes.dropLast.length = [] then none
        else some (CString.ofBytes (path.bytes.drop pattern.bytes.dropLast.length)) := by
      rw [leftOver, hlast, if_pos ⟨congrArg some hstar.1, hstar.2⟩]
    by_cases hrest : path.bytes.drop pattern.bytes.dropLast.length = []
    · rw [hrest] at hmatch
      exact Or.inr (Or.inl ⟨_, hmatch, Or.inr rfl, htakes, hleft.trans (if_pos hrest)⟩)
    · refine Or.inr (Or.inr ⟨_, hmatch, ?_, htakes, hleft.trans (if_neg hrest)⟩)
      rw [CString.bytes_ofBytes_of_not_mem fun h => path.nul_free (List.mem_of_mem_drop h)]
      exact hrest
  · have hleft : leftOver (some pattern) (some path) = none := by
      rw [leftOver, hlast]
      exact if_neg fun h => hstar ⟨Option.some.inj h.1, h.2⟩
    have htakes : takesPath (some pattern) (some path) =
        (pattern.bytes == path.bytes) := by
      rw [takesPath, pathMatches, hlast]
      simp only [Bool.or_eq_right_iff_imp, Bool.and_eq_true, beq_iff_eq]
      exact fun h => absurd ⟨Option.some.inj h.1, h.2⟩ hstar
    have hmatch : matchPath pattern.bytes path.bytes =
        if pattern.bytes = path.bytes then .ok (some none) else .ok none := by
      rw [matchPath, hlast]
      exact if_neg hstar
    by_cases heq : pattern.bytes = path.bytes
    · rw [if_pos heq] at hmatch
      exact Or.inr (Or.inl ⟨none, hmatch, Or.inl rfl, by simp [htakes, heq], hleft⟩)
    · rw [if_neg heq] at hmatch
      exact Or.inl ⟨hmatch, by simp [htakes, heq], hleft⟩

lemma setPathGlob_of_rest {glob : CString} (hglob : glob.bytes ≠ []) (r : Request) :
    redhttpRequestSetPathGlob (some glob) r =
      if r.pathGlob = .freed then .error .useAfterFree r
      else .ok () { r with pathGlob := .valid glob } := by
  have hlength : ¬ glob.strlen = 0 := fun h => hglob (List.eq_nil_of_length_eq_zero h)
  simp only [redhttpRequestSetPathGlob, bind_apply, get_apply]
  cases hold : r.pathGlob <;> simp [bind_apply, hlength]

/-- An empty glob is not stored, and the old one is freed. -/
lemma setPathGlob_of_empty (r : Request) :
    redhttpRequestSetPathGlob (some default) r =
      match r.pathGlob with
      | .null => .ok () r
      | .valid _ => .ok () { r with pathGlob := .freed }
      | .freed => .error .useAfterFree r := by
  have hlength : (default : CString).strlen = 0 := rfl
  simp only [redhttpRequestSetPathGlob, bind_apply, get_apply]
  cases hold : r.pathGlob <;> simp [bind_apply, hlength, ← hold]

/-- What a route does to a request that is ready for it. -/
lemma matchRoute_of_ready (h : GlobReady it r) :
    (¬ (MethodFits it r ∧ takesPath it.path r.path = true) ∧ matchRoute it r = .ok false r) ∨
    (MethodFits it r ∧ takesPath it.path r.path = true) ∧
      matchRoute it r = .ok true { r with pathGlob := ownGlob it.path r.path } := by
  by_cases hmethod : MethodFits it r
  swap
  · obtain ⟨hne, ⟨hnone, -⟩ | ⟨-, hrun⟩⟩ := matchRoute_of_not_methodFits hmethod
    · exact absurd hnone (h.method_ne hne)
    · exact Or.inl ⟨fun hfits => hmethod hfits.1, hrun⟩
  simp only [hmethod, true_and]
  rw [matchRoute_of_methodFits hmethod]
  have hnull := h.null hmethod
  have hsound := h.sound hmethod
  cases hpattern : it.path with
  | none =>
    rw [hpattern] at hnull
    have hglob : r.pathGlob = .null := hnull rfl rfl
    refine Or.inr ⟨rfl, ?_⟩
    rw [show ownGlob none r.path = .null from rfl, ← hglob]
    rfl
  | some pattern =>
    have hne : pattern ≠ default := fun heq => h.pattern_ne hmethod (hpattern.trans (heq ▸ rfl))
    obtain ⟨path, hpath⟩ := Option.ne_none_iff_exists'.mp
      (h.path_ne hmethod (by simp [hpattern]))
    have hcases := matchPath_cases path hne
    rw [← hpath] at hcases
    rw [hpattern] at hnull hsound
    rcases hcases with ⟨hmatch, htakes, -⟩ | ⟨glob, hmatch, hglob, htakes, hleft⟩ |
      ⟨glob, hmatch, hglob, htakes, hleft⟩
    · exact Or.inl ⟨by simp [htakes], by simp [matchRoutePath, hpath, hmatch]⟩
    · have hold : r.pathGlob = .null := hnull htakes hleft
      have hsame : { r with pathGlob := .null } = r := by rw [← hold]
      refine Or.inr ⟨htakes, ?_⟩
      rw [ownGlob, hleft, Option.elim_none, hsame]
      rcases hglob with rfl | rfl
      · simp [matchRoutePath, hpath, hmatch]
      · simp [matchRoutePath, hpath, hmatch, bind_apply, setPathGlob_of_empty, hold]
    · have hold : r.pathGlob ≠ .freed := hsound (by simp [hleft])
      refine Or.inr ⟨htakes, ?_⟩
      rw [ownGlob, hleft, Option.elim_some]
      simp [matchRoutePath, hpath, hmatch, bind_apply, setPathGlob_of_rest hglob, hold]

/-- A comparison of paths that goes well and leaves the right glob has found the request
ready. -/
lemma ready_of_matchRoutePath {pattern : Option CString} {b : Bool}
    (hrun : matchRoutePath pattern r.path r = .ok b r')
    (hfound : b = true → r'.pathGlob = ownGlob pattern r'.path) :
    (pattern ≠ none → r.path ≠ none) ∧ pattern ≠ some default ∧
      (takesPath pattern r.path = true → leftOver pattern r.path = none → r.pathGlob = .null) ∧
      (leftOver pattern r.path ≠ none → r.pathGlob ≠ .freed) := by
  cases pattern with
  | none =>
    obtain ⟨rfl, rfl⟩ : true = b ∧ r = r' := by simpa [matchRoutePath] using hrun
    exact ⟨by simp, by simp, fun _ _ => hfound rfl, fun h => absurd rfl h⟩
  | some pattern =>
    cases hpath : r.path with
    | none => simp [matchRoutePath, hpath] at hrun
    | some path =>
      simp only [matchRoutePath, hpath] at hrun
      have hne : pattern ≠ default := by
        rintro rfl
        simp [matchPath, show (default : CString).bytes = [] from rfl] at hrun
      refine ⟨by simp, by simpa using hne, ?_⟩
      rcases matchPath_cases path hne with ⟨-, htakes, hleft⟩ |
        ⟨glob, hmatch, hglob, htakes, hleft⟩ | ⟨glob, hmatch, hglob, htakes, hleft⟩
      · simp [htakes, hleft]
      · refine ⟨fun _ _ => ?_, fun h => absurd hleft h⟩
        rw [hmatch] at hrun
        rcases hglob with rfl | rfl
        · obtain ⟨rfl, rfl⟩ : true = b ∧ r = r' := by simpa using hrun
          rw [hfound rfl, hpath, ownGlob, hleft, Option.elim_none]
        · -- the old glob has been freed, if there was one
          simp only [bind_apply, setPathGlob_of_empty] at hrun
          cases hold : r.pathGlob with
          | null => rfl
          | freed => simp [hold] at hrun
          | valid old =>
            simp only [hold, pure_apply, EStateM.Result.ok.injEq] at hrun
            obtain ⟨rfl, rfl⟩ := hrun
            have hown := hfound rfl
            simp [hpath, ownGlob, hleft] at hown
      · refine ⟨fun _ h => absurd (hleft.symm.trans h) (by simp), fun _ hold => ?_⟩
        simp [hmatch, bind_apply, setPathGlob_of_rest hglob, hold] at hrun

/-- A handler finds its own glob, and matching stays inside the strings, exactly if the request
is ready for it. -/
lemma findsOwnGlob_iff : FindsOwnGlob it r ↔ GlobReady it r := by
  constructor
  · rintro ⟨b, r', hrun, hfound⟩
    by_cases hmethod : MethodFits it r
    swap
    · obtain ⟨hne, ⟨-, hfault⟩ | ⟨hsome, -⟩⟩ := matchRoute_of_not_methodFits hmethod
      · simp [hfault] at hrun
      · exact ⟨fun _ => hsome, fun h => absurd h hmethod, fun h => absurd h hmethod,
          fun h => absurd h hmethod, fun h => absurd h hmethod⟩
    rw [matchRoute_of_methodFits hmethod] at hrun
    have hmethodNe : it.method ≠ none → r.method ≠ none := by
      intro hne hnone
      rcases hmethod with h | h
      · exact hne h
      · exact hne (h.trans hnone)
    obtain ⟨hpath, hpattern, hnull, hsound⟩ := ready_of_matchRoutePath hrun hfound
    exact ⟨hmethodNe, fun _ => hpath, fun _ => hpattern, fun _ => hnull, fun _ => hsound⟩
  · intro h
    rcases matchRoute_of_ready h with ⟨-, hrun⟩ | ⟨-, hrun⟩
    · exact ⟨false, r, hrun, by simp⟩
    · exact ⟨true, _, hrun, fun _ => rfl⟩

/-! ### The search for a route -/

/-- A request passes a route that does not match, and one whose handler declines. -/
inductive Passes (it : Handler A) : Conn A → Conn A → Prop
  | skipped {c : Conn A} {r : Request} (h : matchRoute it c.request = .ok false r) :
      Passes it c { c with request := r }
  | declined {c c' : Conn A} {r : Request} (h : matchRoute it c.request = .ok true r)
      (hfunc : it.func { c with request := r } = .ok none c') : Passes it c c'

/-- The loop of `redhttp_server_dispatch_request` goes on to the next route. -/
def NextRoute (x y : List (Handler A) × Conn A) : Prop :=
  ∃ it, x.1 = it :: y.1 ∧ Passes it x.2 y.2

lemma tryRoutes_of_nextRoute {x y : List (Handler A) × Conn A} (h : NextRoute x y) :
    tryRoutes x.1 x.2 = tryRoutes y.1 y.2 := by
  obtain ⟨rest, d⟩ := y
  obtain ⟨it, hx, hpasses⟩ := h
  rw [hx]
  cases hpasses with
  | @skipped r h =>
    have hmatch : onRequest (matchRoute it) x.2 = .ok false { x.2 with request := r } := by
      simp only [onRequest, h]
    rw [tryRoutes, bind_of_ok hmatch]
    rfl
  | declined h hfunc => rw [tryRoutes_of_matching h, hfunc]

lemma tryRoutes_of_reaches {x y : List (Handler A) × Conn A}
    (h : Relation.ReflTransGen NextRoute x y) : tryRoutes x.1 x.2 = tryRoutes y.1 y.2 := by
  induction h with
  | refl => rfl
  | tail _ hnext ih => exact ih.trans (tryRoutes_of_nextRoute hnext)

variable {handlers rest : List (Handler A)} {c d : Conn A}

/-- The dispatch of a request tries a route, with others behind it. -/
def DispatchTries (handlers : List (Handler A)) (c : Conn A) (it : Handler A)
    (rest : List (Handler A)) (d : Conn A) : Prop :=
  (c.request.method ≠ none ∧ c.request.path ≠ none ∧
    c.request.path ≠ some (CString.lit "*")) ∧
    Relation.ReflTransGen NextRoute (handlers, c) (it :: rest, d)

/-- The end of a dispatch: the answer of a handler, or a fallback. -/
def orFallback (heap : Heap) (handlers : List (Handler A)) :
    Option Response → ConnM A (Option Response)
  | some response => pure (some response)
  | none => answerFallback heap handlers

/-- From a route that is tried, the dispatch goes on as the search from there on. -/
lemma dispatchRequest_of_tries (heap : Heap) (h : DispatchTries handlers c it rest d) :
    redhttpServerDispatchRequest heap handlers c =
      (tryRoutes (it :: rest) >>= orFallback heap handlers) d := by
  obtain ⟨⟨hmethod, hpath, hasterisk⟩, hreaches⟩ := h
  obtain ⟨method, hmethod⟩ := Option.ne_none_iff_exists'.mp hmethod
  obtain ⟨path, hpath⟩ := Option.ne_none_iff_exists'.mp hpath
  have hne : path ≠ CString.lit "*" := fun heq => hasterisk (heq ▸ hpath)
  have hrun : tryRoutes handlers c = tryRoutes (it :: rest) d := tryRoutes_of_reaches hreaches
  simp only [redhttpServerDispatchRequest, bind_apply, get_apply, hpath, hmethod, hne, if_false,
    hrun]
  cases tryRoutes (it :: rest) d with
  | error e d' => rfl
  | ok response d' => cases response <;> rfl

/-- The dispatch of a request calls a handler. -/
def DispatchInvokes (handlers : List (Handler A)) (c : Conn A) (it : Handler A) (d : Conn A) :
    Prop :=
  ∃ rest e r, DispatchTries handlers c it rest e ∧ matchRoute it e.request = .ok true r ∧
    d = { e with request := r }

/-- Matching stays inside the strings, and every handler that is called finds the glob that
belongs to it. -/
def OwnGlobs (handlers : List (Handler A)) (c : Conn A) : Prop :=
  (∀ it rest d, DispatchTries handlers c it rest d → ∃ b r, matchRoute it d.request = .ok b r) ∧
    ∀ it d, DispatchInvokes handlers c it d →
      d.request.pathGlob = ownGlob it.path d.request.path

lemma ownGlobs_iff : OwnGlobs handlers c ↔
    ∀ it rest d, DispatchTries handlers c it rest d → GlobReady it d.request := by
  constructor
  · rintro ⟨hmatch, hglob⟩ it rest d htries
    obtain ⟨b, r, hrun⟩ := hmatch it rest d htries
    refine findsOwnGlob_iff.mp ⟨b, r, hrun, ?_⟩
    rintro rfl
    exact hglob it _ ⟨rest, d, r, htries, hrun, rfl⟩
  · intro hready
    refine ⟨fun it rest d htries => ?_, ?_⟩
    · obtain ⟨b, r, hrun, -⟩ := findsOwnGlob_iff.mpr (hready it rest d htries)
      exact ⟨b, r, hrun⟩
    · rintro it _ ⟨rest, e, r, htries, hrun, rfl⟩
      obtain ⟨b, r', hrun', hfound⟩ := findsOwnGlob_iff.mpr (hready it rest e htries)
      rw [hrun, EStateM.Result.ok.injEq] at hrun'
      obtain ⟨rfl, rfl⟩ := hrun'
      exact hfound rfl

/-! ### Handlers that leave the request as it is -/

/-- The method is that of a request, and the pattern leaves something of the path over. -/
def LeavesOver (it : Handler A) (r : Request) : Prop :=
  MethodFits it r ∧ leftOver it.path r.path ≠ none

/-- The route takes a request, and its pattern leaves nothing of the path over. -/
def TakesWhole (it : Handler A) (r : Request) : Prop :=
  MethodFits it r ∧ takesPath it.path r.path = true ∧ leftOver it.path r.path = none

/-- A handler that declines has not changed what routes are matched by. -/
def LeavesRequest (it : Handler A) : Prop :=
  ∀ c c', it.func c = .ok none c' → c'.request.method = c.request.method ∧
    c'.request.path = c.request.path ∧ c'.request.pathGlob = c.request.pathGlob

/-- No handler with an empty path is tried for a request with its method, and after a route that
leaves something over and declines, no route takes the request with nothing left over. -/
def NoGlobLeft (handlers : List (Handler A)) (c : Conn A) : Prop :=
  (∀ it rest d, DispatchTries handlers c it rest d → MethodFits it c.request →
    it.path ≠ some default) ∧
    ∀ left rest d d', DispatchTries handlers c left rest d → Passes left d d' →
      LeavesOver left c.request → ∀ it rest' e,
        Relation.ReflTransGen NextRoute (rest, d') (it :: rest', e) → ¬ TakesWhole it c.request

/-- The request as the routes see it, but for its glob. -/
def SameRoute (r r' : Request) : Prop := r'.method = r.method ∧ r'.path = r.path

lemma SameRoute.methodFits_iff (h : SameRoute r r') : MethodFits it r' ↔ MethodFits it r := by
  rw [MethodFits, MethodFits, h.1]

lemma SameRoute.leavesOver_iff (h : SameRoute r r') : LeavesOver it r' ↔ LeavesOver it r := by
  rw [LeavesOver, LeavesOver, h.methodFits_iff, h.2]

lemma SameRoute.takesWhole_iff (h : SameRoute r r') : TakesWhole it r' ↔ TakesWhole it r := by
  rw [TakesWhole, TakesWhole, h.methodFits_iff, h.2]

lemma takesPath_of_leftOver {pattern path : Option CString}
    (h : leftOver pattern path ≠ none) : takesPath pattern path = true := by
  cases pattern with
  | none => rfl
  | some pattern =>
    cases path with
    | none => exact absurd rfl h
    | some path =>
      rw [leftOver] at h
      split at h
      · next hstar => simp [takesPath, pathMatches, hstar.1, hstar.2]
      · exact absurd rfl h

/-- A route that a request passes leaves it a glob if it leaves something over, and else leaves
the glob alone. -/
lemma Passes.glob {d' : Conn A} (h : Passes it d d') (hready : GlobReady it d.request)
    (hleaves : LeavesRequest it) : SameRoute d.request d'.request ∧
      (LeavesOver it d.request ∧ (∃ glob, d'.request.pathGlob = .valid glob) ∨
        ¬ LeavesOver it d.request ∧ d'.request.pathGlob = d.request.pathGlob) := by
  rcases matchRoute_of_ready hready with ⟨hnot, hrun⟩ | ⟨⟨hmethod, htakes⟩, hrun⟩
  · have hover : ¬ LeavesOver it d.request :=
      fun hover => hnot ⟨hover.1, takesPath_of_leftOver hover.2⟩
    cases h with
    | skipped h =>
      rw [hrun, EStateM.Result.ok.injEq] at h
      obtain ⟨-, rfl⟩ := h
      exact ⟨⟨rfl, rfl⟩, Or.inr ⟨hover, rfl⟩⟩
    | declined h => simp [hrun] at h
  · cases h with
    | skipped h => simp [hrun] at h
    | declined h hfunc =>
      rw [hrun, EStateM.Result.ok.injEq] at h
      obtain ⟨-, rfl⟩ := h
      obtain ⟨hmethod', hpath', hglob'⟩ := hleaves _ _ hfunc
      refine ⟨⟨hmethod', hpath'⟩, ?_⟩
      rw [hglob']
      cases hleft : leftOver it.path d.request.path with
      | none =>
        refine Or.inr ⟨fun hover => hover.2 hleft, ?_⟩
        rw [hready.null hmethod htakes hleft, ownGlob, hleft]
        rfl
      | some glob =>
        refine Or.inl ⟨⟨hmethod, by simp [hleft]⟩, glob, ?_⟩
        rw [ownGlob, hleft]
        rfl

lemma SameRoute.globReady (h : SameRoute c.request r) (hmethod : c.request.method ≠ none)
    (hpath : c.request.path ≠ none)
    (hempty : MethodFits it c.request → it.path ≠ some default)
    (hnull : TakesWhole it c.request → r.pathGlob = .null) (hsound : r.pathGlob ≠ .freed) :
    GlobReady it r where
  method_ne _ := h.1 ▸ hmethod
  path_ne _ _ := h.2 ▸ hpath
  pattern_ne hfits := hempty (h.methodFits_iff.mp hfits)
  null hfits htakes hleft := hnull (h.takesWhole_iff.mp ⟨hfits, htakes, hleft⟩)
  sound _ _ := hsound

/-- The glob is NULL, or a route has left it that is behind the request. -/
def GlobOf (handlers : List (Handler A)) (c : Conn A) (x : List (Handler A) × Conn A) : Prop :=
  x.2.request.pathGlob = .null ∨ (∃ glob, x.2.request.pathGlob = .valid glob) ∧
    ∃ left rest d d', DispatchTries handlers c left rest d ∧ Passes left d d' ∧
      LeavesOver left c.request ∧ Relation.ReflTransGen NextRoute (rest, d') x

lemma ready_of_globOf (h : NoGlobLeft handlers c) (htries : DispatchTries handlers c it rest d)
    (hsame : SameRoute c.request d.request) (hof : GlobOf handlers c (it :: rest, d)) :
    GlobReady it d.request := by
  refine hsame.globReady htries.1.1 htries.1.2.1 (h.1 it rest d htries) ?_ ?_
  · intro hwhole
    rcases hof with hnull | ⟨-, left, rest₀, d₀, d₁, hleft, hpasses, hover, hreaches⟩
    · exact hnull
    · exact absurd hwhole (h.2 left rest₀ d₀ d₁ hleft hpasses hover it rest d hreaches)
  · rcases hof with hnull | ⟨⟨glob, hvalid⟩, -⟩
    · exact fun hfreed => absurd (hnull.symm.trans hfreed) (by simp)
    · exact fun hfreed => absurd (hvalid.symm.trans hfreed) (by simp)

lemma mem_of_reaches {x y : List (Handler A) × Conn A} (h : Relation.ReflTransGen NextRoute x y) :
    ∀ it ∈ y.1, it ∈ x.1 := by
  induction h with
  | refl => exact fun _ hit => hit
  | tail _ hnext ih =>
    obtain ⟨it, hx, -⟩ := hnext
    intro it' hit'
    exact ih it' (hx ▸ List.mem_cons_of_mem it hit')

section LeftAlone

variable (hstart : c.request.method ≠ none ∧ c.request.path ≠ none ∧
    c.request.path ≠ some (CString.lit "*"))
  (hleave : ∀ it ∈ handlers, LeavesRequest it)
include hstart hleave

/-- As long as no glob is left for a route with nothing left over, the glob of a request is NULL
or that of a route behind it. -/
lemma globOf_of_reaches (hglob : c.request.pathGlob = .null) (h : NoGlobLeft handlers c)
    {x : List (Handler A) × Conn A}
    (hreaches : Relation.ReflTransGen NextRoute (handlers, c) x) :
    SameRoute c.request x.2.request ∧ GlobOf handlers c x := by
  induction hreaches with
  | refl => exact ⟨⟨rfl, rfl⟩, Or.inl hglob⟩
  | @tail x y hreaches hnext ih =>
    obtain ⟨hsame, hof⟩ := ih
    obtain ⟨rest, d⟩ := x
    obtain ⟨rest', d'⟩ := y
    obtain ⟨it, rfl, hpasses⟩ := hnext
    have htries : DispatchTries handlers c it rest' d := ⟨hstart, hreaches⟩
    have hleaveIt : LeavesRequest it := hleave it (mem_of_reaches hreaches it (by simp))
    obtain ⟨hsame', ⟨hover, hvalid⟩ | ⟨hnot, hkept⟩⟩ :=
      hpasses.glob (ready_of_globOf h htries hsame hof) hleaveIt
    · refine ⟨⟨hsame'.1.trans hsame.1, hsame'.2.trans hsame.2⟩, Or.inr ⟨hvalid, ?_⟩⟩
      exact ⟨it, rest', d, d', htries, hpasses, hsame.leavesOver_iff.mp hover, .refl⟩
    · refine ⟨⟨hsame'.1.trans hsame.1, hsame'.2.trans hsame.2⟩, ?_⟩
      rcases hof with hnull | ⟨⟨glob, hvalid⟩, left, rest₀, d₀, d₁, hleft, hpassed, hover, hpath⟩
      · exact Or.inl (hkept.trans hnull)
      · exact Or.inr ⟨⟨glob, hkept.trans hvalid⟩, left, rest₀, d₀, d₁, hleft, hpassed, hover,
          hpath.tail ⟨it, rfl, hpasses⟩⟩

lemma ready_of_noGlobLeft (hglob : c.request.pathGlob = .null) (h : NoGlobLeft handlers c)
    (htries : DispatchTries handlers c it rest d) : GlobReady it d.request := by
  obtain ⟨hsame, hof⟩ := globOf_of_reaches hstart hleave hglob h htries.2
  exact ready_of_globOf h htries hsame hof

/-- A route that is ready for a request leaves its method and path alone. -/
lemma sameRoute_of_reaches
    (hready : ∀ it rest d, DispatchTries handlers c it rest d → GlobReady it d.request)
    {x : List (Handler A) × Conn A}
    (hreaches : Relation.ReflTransGen NextRoute (handlers, c) x) :
    SameRoute c.request x.2.request := by
  induction hreaches with
  | refl => exact ⟨rfl, rfl⟩
  | @tail x y hreaches hnext ih =>
    obtain ⟨rest, d⟩ := x
    obtain ⟨rest', d'⟩ := y
    obtain ⟨it, rfl, hpasses⟩ := hnext
    have hleaveIt : LeavesRequest it := hleave it (mem_of_reaches hreaches it (by simp))
    obtain ⟨hsame, -⟩ := hpasses.glob (hready it rest' d ⟨hstart, hreaches⟩) hleaveIt
    exact ⟨hsame.1.trans ih.1, hsame.2.trans ih.2⟩

lemma noGlobLeft_of_ready
    (hready : ∀ it rest d, DispatchTries handlers c it rest d → GlobReady it d.request) :
    NoGlobLeft handlers c := by
  have hsame := @sameRoute_of_reaches A handlers c hstart hleave hready
  constructor
  · intro it rest d htries hmethod
    exact (hready it rest d htries).pattern_ne ((hsame htries.2).methodFits_iff.mpr hmethod)
  · intro left rest d d' htries hpasses hover it rest' e hreaches hwhole
    have hstep : Relation.ReflTransGen NextRoute (handlers, c) (rest, d') :=
      htries.2.tail ⟨left, rfl, hpasses⟩
    -- the glob that is left stays valid: no route that takes the request whole is ready for it
    have hvalid : ∀ x, Relation.ReflTransGen NextRoute (rest, d') x →
        ∃ glob, x.2.request.pathGlob = .valid glob := by
      intro x hx
      induction hx with
      | refl =>
        have hleft : LeavesRequest left := hleave left (mem_of_reaches htries.2 left (by simp))
        obtain ⟨-, ⟨-, hvalid⟩ | ⟨hnot, -⟩⟩ :=
          hpasses.glob (hready left rest d htries) hleft
        · exact hvalid
        · exact absurd ((hsame htries.2).leavesOver_iff.mpr hover) hnot
      | @tail x y hx hnext ih =>
        obtain ⟨rest₁, d₁⟩ := x
        obtain ⟨rest₂, d₂⟩ := y
        obtain ⟨it, rfl, hpasses⟩ := hnext
        have hthere := hstep.trans hx
        have hleaveIt : LeavesRequest it := hleave it (mem_of_reaches hthere it (by simp))
        obtain ⟨-, ⟨-, hvalid⟩ | ⟨-, hkept⟩⟩ :=
          hpasses.glob (hready it rest₂ d₁ ⟨hstart, hthere⟩) hleaveIt
        · exact hvalid
        · obtain ⟨glob, hglob⟩ := ih
          exact ⟨glob, hkept.trans hglob⟩
    have hthere := hstep.trans hreaches
    obtain ⟨glob, hglob⟩ := hvalid _ hreaches
    obtain ⟨hmethod, htakes, hleft⟩ := (hsame hthere).takesWhole_iff.mpr hwhole
    have hnull := (hready it rest' e ⟨hstart, hthere⟩).null hmethod htakes hleft
    exact absurd (hglob.symm.trans hnull) (by simp)

end LeftAlone

/-- From every route that is tried the dispatch goes on.  Every handler that it calls finds the
glob that belongs to it, and matching stays inside the strings, exactly if the request is ready
for each route that is tried.  For a request without a glob and handlers that leave a request
alone when they decline, that depends on the table and on the request only. -/
theorem ownGlobs_dispatch_iff (heap : Heap) (handlers : List (Handler A)) (c : Conn A) :
    (∀ it rest d, DispatchTries handlers c it rest d →
      redhttpServerDispatchRequest heap handlers c =
        (tryRoutes (it :: rest) >>= orFallback heap handlers) d) ∧
    (OwnGlobs handlers c ↔
      ∀ it rest d, DispatchTries handlers c it rest d → GlobReady it d.request) ∧
    (c.request.pathGlob = .null → (∀ it ∈ handlers, LeavesRequest it) →
      (OwnGlobs handlers c ↔ NoGlobLeft handlers c)) := by
  refine ⟨fun it rest d => dispatchRequest_of_tries heap, ownGlobs_iff, fun hglob hleave => ?_⟩
  rw [ownGlobs_iff]
  by_cases hstart : c.request.method ≠ none ∧ c.request.path ≠ none ∧
      c.request.path ≠ some (CString.lit "*")
  · exact ⟨noGlobLeft_of_ready hstart hleave, fun h it rest d htries =>
      ready_of_noGlobLeft hstart hleave hglob h htries⟩
  · -- the dispatch does not come to the table
    exact iff_of_true (fun it rest d htries => absurd htries.1 hstart)
      ⟨fun it rest d htries => absurd htries.1 hstart,
        fun left rest d d' htries => absurd htries.1 hstart⟩

/-- A handler that declines every request. -/
def declines (method path : Option CString) : Handler A where
  method := method
  path := path
  func := pure none

lemma leavesRequest_declines (method path : Option CString) :
    LeavesRequest (declines method path : Handler A) := by
  intro c c' h
  have hsame : c = c' := by simpa [declines] using h
  rw [hsame]
  exact ⟨rfl, rfl, rfl⟩

/-- A request for a path with a rest for a glob. -/
def globRequest : Conn Unit where
  request := { method := some (CString.lit "GET"), path := some (CString.lit "/ab") }
  app := ()

/-- A route with a glob that declines, in front of one for another path. -/
def globHandlers : List (Handler Unit) :=
  [declines none (some (CString.lit "/a*")), declines none (some (CString.lit "/cd"))]

/-- No route of the table takes the request with nothing left over. -/
theorem ownGlobs_dispatch_rest :
    NoGlobLeft globHandlers globRequest ∧ OwnGlobs globHandlers globRequest := by
  have hleave : ∀ it ∈ globHandlers, LeavesRequest it := by
    intro it hit
    simp only [globHandlers, List.mem_cons, List.not_mem_nil, or_false] at hit
    rcases hit with rfl | rfl <;> exact leavesRequest_declines _ _
  have hpath : ∀ it ∈ globHandlers, it.path ≠ some default := by decide
  have hwhole : ∀ it ∈ globHandlers, ¬ TakesWhole it globRequest.request := by
    have hrest : ∀ it ∈ globHandlers,
        takesPath it.path globRequest.request.path = false ∨
          leftOver it.path globRequest.request.path ≠ none := by decide
    rintro it hit ⟨-, htakes, hleft⟩
    rcases hrest it hit with hno | hover
    · rw [hno] at htakes
      cases htakes
    · exact hover hleft
  have hnone : NoGlobLeft globHandlers globRequest := by
    refine ⟨fun it rest d htries _ => hpath it (mem_of_reaches htries.2 it (by simp)), ?_⟩
    intro left rest d d' htries hpasses _ it rest' e hreaches
    have hnext : NextRoute (left :: rest, d) (rest, d') := ⟨left, rfl, hpasses⟩
    exact hwhole it (mem_of_reaches ((htries.2.tail hnext).trans hreaches) it (by simp))
  exact ⟨hnone, ((ownGlobs_dispatch_iff ⟨fun _ => true, fun _ => 0⟩ _ _).2.2 rfl hleave).mpr hnone⟩

/-- A handler for every path finds the glob of the route in front of it that has declined, and
the comparison with an empty path reads the byte in front of it. -/
theorem ownGlobs_stale :
    ¬ OwnGlobs [declines none (some (CString.lit "/a*")), declines none none] globRequest ∧
      ¬ OwnGlobs [declines none (some default)] globRequest := by
  have hstart : globRequest.request.method ≠ none ∧ globRequest.request.path ≠ none ∧
      globRequest.request.path ≠ some (CString.lit "*") := by decide
  refine ⟨fun h => ?_, fun h => ?_⟩
  · let r : Request := { globRequest.request with pathGlob := .valid (CString.lit "b") }
    let d : Conn Unit := { globRequest with request := r }
    have hmatch : matchRoute (declines none (some (CString.lit "/a*")) : Handler Unit)
        globRequest.request = .ok true r := by rfl
    have hnext : NextRoute ([declines none (some (CString.lit "/a*")), declines none none],
        globRequest) ([declines none none], d) := ⟨_, rfl, .declined hmatch rfl⟩
    have hglob := h.2 (declines none none) d ⟨[], d, r, ⟨hstart, .single hnext⟩, rfl, rfl⟩
    simp [d, r, ownGlob, leftOver, declines] at hglob
  · obtain ⟨b, r, hrun⟩ := h.1 (declines none (some default)) [] globRequest ⟨hstart, .refl⟩
    have hfault : matchRoute (declines none (some default) : Handler Unit) globRequest.request =
        .error .outOfBounds globRequest.request := by rfl
    rw [hfault] at hrun
    cases hrun

end RedStore.RedHttp
