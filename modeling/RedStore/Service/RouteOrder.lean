/-
The order of the routes of the service.

Of the routes that `redstore_setup_http_server` adds, the first three only count, log and reset,
and the last two take what is left.  All others have a method and a path, and no request matches
two of them: they could be added in any order, and every client would get the same bytes.
-/
import RedStore.RedHttp.RouteOrder
import RedStore.Service.BodyReads
import RedStore.Service.Framing
import RedStore.Service.MethodSemantics

namespace RedStore.Service
open CLib RedHttp

variable {T R σ : Type} {w : World T R σ}

/-- The table of the service with other routes in place of those with a path. -/
def tableWith (w : World T R σ) (routes : List (Handler (App σ))) : List (Handler (App σ)) :=
  [route none none requestCounter, route none none requestLog, route none none resetErrorBuffer] ++
    (routes ++ [route (some "GET") none (removeTrailingSlash w),
      route none none (handleNotFound w)])

lemma tableWith_pathHandlers : tableWith w (pathHandlers w) = redstoreHandlers w := rfl

lemma map_pathHandlers : (pathHandlers w).map (fun it => (it.method, it.path)) =
    (routeTable.drop 3).take 22 := rfl

/-- No request matches two of them. -/
lemma exclusive_pathHandlers : (pathHandlers w).Pairwise Exclusive := by
  have hkeys : ((routeTable.drop 3).take 22).Pairwise fun key key' =>
      routesApart key key' = true := by decide +kernel
  refine pairwise_of_apart ?_
  rw [map_pathHandlers]
  exact hkeys

/-! ### What handlers leave alone -/

/-- What a request is routed by. -/
def routeSide (r : Request) : Option CString × Option CString := (r.method, r.path)

lemma keeps_readDataBody (heap : Heap) (length : Option CString) :
    Keeps routeSide (readDataBody heap length) := by
  intro r
  cases length with
  | none => rfl
  | some length =>
    rw [readDataBody_eq rfl]
    by_cases hzero : sizeOfInt (atoi length) = 0
    · rw [if_pos hzero]
      rfl
    · rw [if_neg hzero]
      by_cases hmalloc : heap.malloc (sizeOfInt (atoi length)) = true
      · rw [if_pos hmalloc]
        rfl
      · rw [if_neg hmalloc]
        rfl

/-- The steps of the handlers leave alone what a request is routed by. -/
lemma routeRules (w : World T R σ) (side : Option CString × Option CString) :
    HandlerRules w (fun c => routeSide c.request = side) (fun _ => True)
      (fun _ c => routeSide c.request = side) (fun _ c => routeSide c.request = side) where
  call f c hc := by
    rw [call_apply]
    exact hc
  log m c hc := hc
  inspect c hc := hc
  reset c hc := hc
  counters f _ := maintains_modify fun c hc => hc
  url := by
    refine (maintains_onRequest (fun r => ?_) side).mono (fun _ hc => hc) fun _ _ hc => ⟨hc, trivial⟩
    rw [redhttpRequestGetUrl_apply]
    rfl
  host := by
    refine maintains_onRequest (fun r => ?_) side
    rw [redhttpRequestGetHost_apply]
    rfl
  body length := maintains_onRequest (keeps_readDataBody w.heap length) side
  glob glob := maintains_onRequest (keeps_setPathGlob (fun _ _ => rfl) glob) side
  built hc _ := hc
  asterisk hc _ := hc
  fallback hc _ := hc
  send _ := maintains_onRequest (fun r => congrArg
    (fun side : ReadSide => (side.method, side.path)) (keeps_send w.now _ r)) side
  sentCall _ f c hc := by
    rw [call_apply]
    exact hc
  sentLog _ m c hc := hc
  sentWrite _ _ := maintains_onRequest (fun _ => rfl) side
  sent hc := hc

lemma keepsRoute_redstoreHandlers (method path : CString) :
    ∀ it ∈ redstoreHandlers w, KeepsRoute method path it := by
  have hrules := routeRules w (some method, some path)
  have hserves := hrules.toStepRules.handlers (.inr hrules.handleDataPut)
    (.inr hrules.handleDataPost) (.inr (StepRules.removeTrailingSlash fun hc _ _ => hc))
  intro it hit
  rcases hserves it hit with hskip | hfunc
  · exact .inl fun c hc => hskip c (Prod.ext hc.1 hc.2)
  · exact .inr fun c c' hc hrun => Prod.mk.inj (hfunc.of_ok (Prod.ext hc.1 hc.2) hrun)

/-! ### Any order -/

section AnyOrder

variable {routes : List (Handler (App σ))} {c : Conn (App σ)}

lemma tryRoutes_tableWith (hperm : routes.Perm (pathHandlers w)) {method path : CString}
    (h : RequestFor method path c) :
    tryRoutes (tableWith w routes) c = tryRoutes (redstoreHandlers w) c := by
  have hkeeps : ∀ it ∈ pathHandlers w, KeepsRoute method path it := fun it hit =>
    keepsRoute_redstoreHandlers method path it (mem_redstoreHandlers_of_path hit)
  have hroutes : ∀ it ∈ routes, KeepsRoute method path it :=
    fun it hit => hkeeps it (hperm.mem_iff.mp hit)
  have hapart : routes.Pairwise Exclusive :=
    (hperm.pairwise_iff Exclusive.symm).mpr exclusive_pathHandlers
  have hbefore : RequestFor method path (beforeHandlers c) := h
  rw [← tableWith_pathHandlers]
  exact tryRoutes_perm hperm hapart hroutes hbefore

/-- A table whose last route takes every request has an answer for every request. -/
lemma tryRoutes_answers {first : List (Handler (App σ))} {c c' : Conn (App σ)} :
    tryRoutes (first ++ [route none none (handleNotFound w)]) c ≠ .ok none c' := by
  induction first generalizing c with
  | nil =>
    rw [List.nil_append, tryRoutes_of_answering rfl handleNotFound_alwaysAnswers]
    exact handleNotFound_alwaysAnswers _ _
  | cons it first ih =>
    rw [List.cons_append, tryRoutes]
    cases hmatch : onRequest (matchRoute it) c with
    | error e d =>
      rw [bind_of_error hmatch]
      rintro ⟨⟩
    | ok matched d =>
      rw [bind_of_ok hmatch]
      cases matched with
      | false => exact ih
      | true =>
        cases hfunc : it.func d with
        | error e d' =>
          simp only [if_true, bind_of_error hfunc]
          rintro ⟨⟩
        | ok response d' =>
          simp only [if_true, bind_of_ok hfunc]
          cases response with
          | none => exact ih
          | some response => rintro ⟨⟩

lemma dispatchRequest_tableWith (hperm : routes.Perm (pathHandlers w))
    (hpath : c.request.path ≠ some (CString.lit "*")) :
    redhttpServerDispatchRequest w.heap (tableWith w routes) c = dispatchRequest w c := by
  simp only [dispatchRequest, redhttpServerDispatchRequest, bind_apply, get_apply]
  cases hp : c.request.path with
  | none => rfl
  | some path =>
    cases hm : c.request.method with
    | none => rfl
    | some method =>
      have hstar : path ≠ CString.lit "*" := fun heq => hpath (heq ▸ hp)
      have htry := tryRoutes_tableWith hperm ⟨hm, hp⟩
      simp only [if_neg hstar, bind_apply, htry]
      cases hrun : tryRoutes (redstoreHandlers w) c with
      | error e d => rfl
      | ok response d =>
        cases response with
        | some response => rfl
        | none =>
          have hlast : redstoreHandlers w = (redstoreHandlers w).dropLast ++
              [route none none (handleNotFound w)] := rfl
          rw [hlast] at hrun
          exact absurd hrun tryRoutes_answers

/-- However the routes with a path are ordered, a connection is served the same: the same bytes
are written, and the store is the same behind it, unless the request is for `*`, which is told
the methods in the order of the table. -/
theorem handleRequest_anyOrder (hperm : routes.Perm (pathHandlers w))
    (hpath : ∀ result r, redhttpRequestRead w.heap c.request = .ok result r →
      r.path ≠ some (CString.lit "*")) :
    redhttpServerHandleRequest w.heap w.now (tableWith w routes) c = handleRequest w c := by
  rw [handleRequest, redhttpServerHandleRequest_eq, redhttpServerHandleRequest_eq, bind_apply,
    bind_apply]
  cases hread : redhttpRequestRead w.heap c.request with
  | error e r => simp only [onRequest, hread]
  | ok result r =>
    have hdispatch := dispatchRequest_tableWith (c := { c with request := r }) hperm
      (hpath result r hread)
    have hanswer : answerRequest w.heap (tableWith w routes) result { c with request := r } =
        answerRequest w.heap (redstoreHandlers w) result { c with request := r } := by
      rw [answerRequest, answerRequest]
      split
      · cases redhttpResponseNewErrorPage w.heap .badRequest [] with
        | some response => rfl
        | none => exact hdispatch
      · exact hdispatch
    simp only [onRequest, hread, bind_apply, hanswer]

/-- The home page is the same from the table backwards. -/
theorem handleRequest_anyOrder_backwards :
    redhttpServerHandleRequest memoryWorld.heap memoryWorld.now
        (tableWith memoryWorld (pathHandlers memoryWorld).reverse)
        ⟨redhttpRequestNew none default default greetingInput, emptyApp⟩ =
      handleRequest memoryWorld ⟨redhttpRequestNew none default default greetingInput, emptyApp⟩ := by
  refine handleRequest_anyOrder (List.reverse_perm _) fun result r hread => ?_
  obtain ⟨-, rfl⟩ := EStateM.Result.ok.inj (read_greeting.symm.trans hread)
  decide

end AnyOrder

end RedStore.Service
