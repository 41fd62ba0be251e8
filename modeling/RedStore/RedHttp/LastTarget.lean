/-
A request whose target is set more than once.

A target leaves its path and its query string behind, its arguments behind those there are
already, and, once somebody has asked for it, the URL.  So what the getters return afterwards
is that of the last target only where the earlier ones have left nothing that it does not
replace.
-/
import RedStore.RedHttp.RequestLine

namespace RedStore.RedHttp
open CLib

/-! ### Sequences of calls -/

/-- The getters of a request: those of the URL and of the host keep what they have worked out,
the others change nothing. -/
inductive Getter where
  | url
  | host
  | plain

inductive TargetCall where
  | set (target : Option CString)
  | get (getter : Getter)

def TargetCall.run : TargetCall → RequestM Unit
  | .set target => redhttpRequestSetPathAndQuery target
  | .get .url => do
    let _ ← redhttpRequestGetUrl
    pure ()
  | .get .host => do
    let _ ← redhttpRequestGetHost
    pure ()
  | .get .plain => pure ()

def runCalls : List TargetCall → RequestM Unit
  | [] => pure ()
  | call :: calls => do
    call.run
    runCalls calls

/-- What the getters return of a target; `currentUrl` is what `redhttp_request_get_url`
returns. -/
structure TargetView where
  pathAndQuery : Option CString
  path : Option CString
  queryString : Option CString
  arguments : List Header
  url : Option CString
deriving DecidableEq

def Request.targetView (r : Request) : TargetView :=
  ⟨r.pathAndQuery, r.path, r.queryString, r.arguments, r.currentUrl⟩

/-- The URL of a target on a host. -/
def targetUrl (host target : CString) : CString := CString.lit "http://" ++ host ++ target

/-- The arguments of a target. -/
def targetArguments (target : CString) : List Header :=
  (argumentSegments (queryBytes target)).map segmentHeader

/-- What a target stands for, with nothing set before it. -/
def lastView (host : CString) : Option CString → TargetView
  | some target => ⟨some target, some (pathOf target), queryStringOf target,
      targetArguments target, some (targetUrl host target)⟩
  | none => ⟨none, none, none, [], none⟩

/-! ### What some calls leave behind -/

/-- The targets that are set. -/
def targets (calls : List TargetCall) : List CString :=
  calls.filterMap fun
    | .set target => target
    | .get _ => none

/-- The target in force after some calls. -/
def currentTarget (target : Option CString) : List TargetCall → Option CString
  | [] => target
  | .set target :: calls => currentTarget target calls
  | .get _ :: calls => currentTarget target calls

/-- The target in force when the URL is first asked for while there is one. -/
def askedTarget (target : Option CString) : List TargetCall → Option CString
  | [] => none
  | .set target :: calls => askedTarget target calls
  | .get .url :: calls => target.or (askedTarget target calls)
  | .get _ :: calls => askedTarget target calls

/-- A request after some calls. -/
structure AfterCalls (r : Request) (calls : List TargetCall) (r' : Request) : Prop where
  pathAndQuery : r'.pathAndQuery = currentTarget r.pathAndQuery calls
  path : r'.path = ((targets calls).getLast?.map pathOf).or r.path
  queryString : r'.queryString = ((targets calls).filterMap queryStringOf).getLast?.or r.queryString
  arguments : r'.arguments = r.arguments ++ (targets calls).flatMap targetArguments
  url : r'.url = r.url.or ((askedTarget r.pathAndQuery calls).map (targetUrl r.currentHost))
  host : r'.currentHost = r.currentHost

lemma currentTarget_append (target : Option CString) (calls calls' : List TargetCall) :
    currentTarget target (calls ++ calls') = currentTarget (currentTarget target calls) calls' := by
  induction calls generalizing target with
  | nil => rfl
  | cons call calls ih => cases call <;> exact ih _

lemma askedTarget_append (target : Option CString) (calls calls' : List TargetCall) :
    askedTarget target (calls ++ calls') =
      (askedTarget target calls).or (askedTarget (currentTarget target calls) calls') := by
  induction calls generalizing target with
  | nil => rfl
  | cons call calls ih =>
    match call with
    | .set _ => exact ih _
    | .get .url =>
      simp only [List.cons_append, askedTarget, currentTarget, ih, Option.or_assoc]
    | .get .host => exact ih _
    | .get .plain => exact ih _

lemma targets_append (calls calls' : List TargetCall) :
    targets (calls ++ calls') = targets calls ++ targets calls' := List.filterMap_append

namespace AfterCalls

variable {r r₁ r₂ : Request} {calls calls' : List TargetCall}

lemma append (h : AfterCalls r calls r₁) (h' : AfterCalls r₁ calls' r₂) :
    AfterCalls r (calls ++ calls') r₂ where
  pathAndQuery := by rw [h'.pathAndQuery, h.pathAndQuery, currentTarget_append]
  path := by
    rw [h'.path, h.path, targets_append, List.getLast?_append, Option.map_or, Option.or_assoc]
  queryString := by
    rw [h'.queryString, h.queryString, targets_append, List.filterMap_append,
      List.getLast?_append, Option.or_assoc]
  arguments := by
    rw [h'.arguments, h.arguments, targets_append, List.flatMap_append, List.append_assoc]
  url := by
    rw [h'.url, h.url, h.host, h.pathAndQuery, askedTarget_append, Option.map_or, Option.or_assoc]
  host := h'.host.trans h.host

/-- Calls without targets and without URLs. -/
lemma of_idle {r : Request} {calls : List TargetCall} (htargets : targets calls = [])
    (hasked : askedTarget r.pathAndQuery calls = none) {r' : Request}
    (htarget : r'.pathAndQuery = currentTarget r.pathAndQuery calls) (hpath : r'.path = r.path)
    (hquery : r'.queryString = r.queryString) (harguments : r'.arguments = r.arguments)
    (hurl : r'.url = r.url) (hhost : r'.currentHost = r.currentHost) : AfterCalls r calls r' where
  pathAndQuery := htarget
  path := by rw [hpath, htargets]; rfl
  queryString := by rw [hquery, htargets]; rfl
  arguments := by rw [harguments, htargets, List.flatMap_nil, List.append_nil]
  url := by rw [hurl, hasked, Option.map_none, Option.or_none]
  host := hhost

lemma nil (r : Request) : AfterCalls r [] r := of_idle rfl rfl rfl rfl rfl rfl rfl rfl

lemma set_none (r : Request) : AfterCalls r [.set none] { r with pathAndQuery := none } :=
  of_idle rfl rfl rfl rfl rfl rfl rfl rfl

lemma set_some (r : Request) (target : CString) :
    AfterCalls r [.set (some target)] (r.withTarget target) where
  pathAndQuery := rfl
  path := rfl
  queryString := by
    show (queryStringOf target).or r.queryString = _
    cases h : queryStringOf target <;> simp [targets, h]
  arguments := by simp [Request.withTarget, targets, targetArguments]
  url := (Option.or_none).symm
  host := rfl

lemma get_url (r : Request) : AfterCalls r [.get .url] r.withUrl where
  pathAndQuery := rfl
  path := rfl
  queryString := rfl
  arguments := (List.append_nil _).symm
  url := by
    rw [askedTarget, askedTarget, Option.or_none]
    rfl
  host := by
    cases hurl : r.url <;> simp [Request.withUrl, Request.currentHost, hurl]
    rfl

lemma get_host (r : Request) :
    AfterCalls r [.get .host] { r with host := some r.currentHost } :=
  of_idle rfl rfl rfl rfl rfl rfl rfl rfl

lemma get_plain (r : Request) : AfterCalls r [.get .plain] r :=
  of_idle rfl rfl rfl rfl rfl rfl rfl rfl

end AfterCalls

/-- The keys of all targets are there. -/
def KeysOfTargets (calls : List TargetCall) : Prop :=
  ∀ target ∈ targets calls, KeysNonEmpty (queryBytes target)

instance (calls : List TargetCall) : Decidable (KeysOfTargets calls) :=
  inferInstanceAs (Decidable (∀ target ∈ targets calls, _))

/-- One call. -/
lemma TargetCall.run_apply (call : TargetCall) (h : KeysOfTargets [call]) (r : Request) :
    ∃ r', call.run r = .ok () r' ∧ AfterCalls r [call] r' := by
  match call with
  | .set none => exact ⟨_, rfl, .set_none r⟩
  | .set (some target) =>
    exact ⟨_, setPathAndQuery_of_keys (h target (by simp [targets])) r, .set_some r target⟩
  | .get .url =>
    refine ⟨r.withUrl, ?_, .get_url r⟩
    simp only [TargetCall.run, bind_apply, redhttpRequestGetUrl_apply, pure_apply]
  | .get .host =>
    refine ⟨_, ?_, .get_host r⟩
    simp only [TargetCall.run, bind_apply, redhttpRequestGetHost_apply, pure_apply]
  | .get .plain => exact ⟨r, rfl, .get_plain r⟩

/-- All calls, one after the other. -/
lemma runCalls_apply {calls : List TargetCall} (h : KeysOfTargets calls) (r : Request) :
    ∃ r', runCalls calls r = .ok () r' ∧ AfterCalls r calls r' := by
  induction calls generalizing r with
  | nil => exact ⟨r, rfl, .nil r⟩
  | cons call calls ih =>
    have hsplit : targets (call :: calls) = targets [call] ++ targets calls :=
      targets_append [call] calls
    rw [KeysOfTargets, hsplit, List.forall_mem_append] at h
    obtain ⟨r₁, hcall, h₁⟩ := call.run_apply h.1 r
    obtain ⟨r₂, hcalls, h₂⟩ := ih h.2 r₁
    exact ⟨r₂, by rw [runCalls, bind_of_ok hcall, hcalls], h₁.append h₂⟩

/-- A target with a missing key aborts the process. -/
lemma runCalls_of_not_keys {calls : List TargetCall} (h : ¬ KeysOfTargets calls) (r : Request) :
    ∃ r', runCalls calls r = .error .assertion r' := by
  induction calls generalizing r with
  | nil => exact absurd (fun target htarget => by cases htarget) h
  | cons call calls ih =>
    have hsplit : targets (call :: calls) = targets [call] ++ targets calls :=
      targets_append [call] calls
    by_cases hcall : KeysOfTargets [call]
    · obtain ⟨r₁, hrun, -⟩ := call.run_apply hcall r
      have hrest : ¬ KeysOfTargets calls := by
        rintro hcalls
        refine h ?_
        rw [KeysOfTargets, hsplit, List.forall_mem_append]
        exact ⟨hcall, hcalls⟩
      obtain ⟨r', hr'⟩ := ih hrest r₁
      exact ⟨r', by rw [runCalls, bind_of_ok hrun, hr']⟩
    · match call with
      | .set none => exact absurd (fun target htarget => by cases htarget) hcall
      | .get _ => exact absurd (fun target htarget => by cases htarget) hcall
      | .set (some target) =>
        have hkeys : ¬ KeysNonEmpty (queryBytes target) := by
          intro hkeys
          refine hcall fun target' htarget' => ?_
          obtain rfl : target' = target := by simpa [targets] using htarget'
          exact hkeys
        obtain ⟨r', hr'⟩ := setPathAndQuery_of_not_keys hkeys r
        exact ⟨r', by rw [runCalls, TargetCall.run, bind_of_error hr']⟩

/-! ### The last target -/

/-- Nothing of what was there before the last target is left behind it. -/
structure LastCounts (r : Request) (front : List TargetCall) (last : Option CString) : Prop where
  /-- No target aborts the process. -/
  keys : KeysOfTargets (front ++ [.set last])
  /-- There were no arguments. -/
  arguments : r.arguments = [] ∧ ∀ target ∈ targets front, argumentSegments (queryBytes target) = []
  /-- There was no query string, unless there is one now. -/
  queryString : last.bind queryStringOf ≠ none ∨
    r.queryString = none ∧ ∀ target ∈ targets front, queryStringOf target = none
  /-- There was no path, unless there is one now. -/
  path : last ≠ none ∨ r.path = none ∧ targets front = []
  /-- The URL was not asked for, or was the same. -/
  url : ∀ url ∈ r.url.or ((askedTarget r.pathAndQuery front).map (targetUrl r.currentHost)),
    last.map (targetUrl r.currentHost) = some url

section Last

variable {r r' : Request} {front : List TargetCall} {last : Option CString}

/-- The parts of a target's view. -/
lemma lastView_eq (host : CString) (last : Option CString) :
    lastView host last = ⟨last, last.map pathOf, last.bind queryStringOf,
      last.toList.flatMap targetArguments, last.map (targetUrl host)⟩ := by
  cases last with
  | none => rfl
  | some target => simp [lastView]

lemma targets_getters (after : List Getter) : targets (after.map .get) = [] := by
  induction after with
  | nil => rfl
  | cons getter after ih => exact ih

lemma targets_last (front : List TargetCall) (last : Option CString) (after : List Getter) :
    targets (front ++ .set last :: after.map .get) = targets front ++ last.toList := by
  have hset : targets (.set last :: after.map .get) = last.toList := by
    cases last with
    | none => exact targets_getters after
    | some target => exact congrArg (target :: ·) (targets_getters after)
  rw [targets_append, hset]

lemma currentTarget_last (target : Option CString) (front : List TargetCall)
    (last : Option CString) (after : List Getter) :
    currentTarget target (front ++ .set last :: after.map .get) = last := by
  rw [currentTarget_append, currentTarget]
  induction after with
  | nil => rfl
  | cons getter after ih => exact ih

/-- The getters behind the last target ask for no other. -/
lemma askedTarget_getters (last : Option CString) (after : List Getter) :
    askedTarget last (after.map .get) = none ∨ askedTarget last (after.map .get) = last := by
  induction after with
  | nil => exact Or.inl rfl
  | cons getter after ih =>
    match getter with
    | .url =>
      cases last with
      | none => exact ih
      | some target => exact Or.inr rfl
    | .host => exact ih
    | .plain => exact ih

/-- The URL at the end is one that was kept before the last target was set, or that of the last
target. -/
lemma AfterCalls.currentUrl_last {after : List Getter}
    (h : AfterCalls r (front ++ .set last :: after.map .get) r') :
    r'.currentUrl = (r.url.or ((askedTarget r.pathAndQuery front).map
      (targetUrl r.currentHost))).or (last.map (targetUrl r.currentHost)) := by
  have hnow : r'.pathAndQuery.map (targetUrl r'.currentHost) =
      last.map (targetUrl r.currentHost) := by
    rw [h.pathAndQuery, currentTarget_last, h.host]
  have hcurrent : r'.currentUrl = r'.url.or (r'.pathAndQuery.map (targetUrl r'.currentHost)) := rfl
  rw [hcurrent, hnow, h.url, askedTarget_append, askedTarget, Option.map_or, ← Option.or_assoc,
    Option.or_assoc]
  congr 1
  rcases askedTarget_getters last after with hasked | hasked <;> rw [hasked]
  · rfl
  · cases last <;> rfl

/-- A request after the last target has been set and some getters have been called. -/
lemma AfterCalls.view_iff {after : List Getter}
    (h : AfterCalls r (front ++ .set last :: after.map .get) r')
    (hkeys : KeysOfTargets (front ++ [.set last])) :
    r'.targetView = lastView r.currentHost last ↔ LastCounts r front last := by
  have hpath : r'.path = last.map pathOf ↔ last ≠ none ∨ r.path = none ∧ targets front = [] := by
    rw [h.path, targets_last]
    cases last with
    | none => simp [and_comm]
    | some target => simp
  have hquery : r'.queryString = last.bind queryStringOf ↔ last.bind queryStringOf ≠ none ∨
      r.queryString = none ∧ ∀ target ∈ targets front, queryStringOf target = none := by
    have hlast : (last.toList.filterMap queryStringOf).getLast? = last.bind queryStringOf := by
      cases last with
      | none => rfl
      | some target => cases hq : queryStringOf target <;> simp [hq]
    rw [h.queryString, targets_last, List.filterMap_append, List.getLast?_append, hlast]
    cases last.bind queryStringOf with
    | none => simp [and_comm]
    | some query => simp
  have harguments : r'.arguments = last.toList.flatMap targetArguments ↔
      r.arguments = [] ∧ ∀ target ∈ targets front, argumentSegments (queryBytes target) = [] := by
    rw [h.arguments, targets_last, List.flatMap_append, ← List.append_assoc,
      List.append_left_eq_self, List.append_eq_nil_iff, List.flatMap_eq_nil_iff]
    simp [targetArguments]
  have hurl : r'.currentUrl = last.map (targetUrl r.currentHost) ↔
      ∀ url ∈ r.url.or ((askedTarget r.pathAndQuery front).map (targetUrl r.currentHost)),
        last.map (targetUrl r.currentHost) = some url := by
    rw [h.currentUrl_last]
    cases r.url.or ((askedTarget r.pathAndQuery front).map (targetUrl r.currentHost)) with
    | none => simp
    | some url => simp [eq_comm]
  have htarget : r'.pathAndQuery = last := by rw [h.pathAndQuery, currentTarget_last]
  rw [lastView_eq, Request.targetView, TargetView.mk.injEq, hpath, hquery, harguments, hurl]
  constructor
  · rintro ⟨-, hpath, hquery, harguments, hurl⟩
    exact ⟨hkeys, harguments, hquery, hpath, hurl⟩
  · rintro ⟨-, harguments, hquery, hpath, hurl⟩
    exact ⟨htarget, hpath, hquery, harguments, hurl⟩

end Last

/-- After some calls the getters return what the last target stands for exactly when nothing
that it does not replace was there before. -/
theorem redhttpRequestSetPathAndQuery_last_iff (r : Request) (front : List TargetCall)
    (last : Option CString) (after : List Getter) :
    (∃ r', runCalls (front ++ .set last :: after.map .get) r = .ok () r' ∧
      r'.targetView = lastView r.currentHost last) ↔ LastCounts r front last := by
  have hsame : targets (front ++ .set last :: after.map .get) = targets (front ++ [.set last]) := by
    rw [targets_last front last after]
    exact (targets_last front last []).symm
  by_cases hkeys : KeysOfTargets (front ++ [.set last])
  · have hall : KeysOfTargets (front ++ .set last :: after.map .get) := by
      rw [KeysOfTargets, hsame]
      exact hkeys
    obtain ⟨r', hrun, hafter⟩ := runCalls_apply hall r
    rw [← hafter.view_iff hkeys]
    constructor
    · rintro ⟨r'', hrun', hview⟩
      rw [hrun] at hrun'
      cases hrun'
      exact hview
    · exact fun hview => ⟨r', hrun, hview⟩
  · have hnot : ¬ KeysOfTargets (front ++ .set last :: after.map .get) := by
      rw [KeysOfTargets, hsame]
      exact hkeys
    obtain ⟨r', hrun⟩ := runCalls_of_not_keys hnot r
    refine iff_of_false ?_ fun h => hkeys h.keys
    rintro ⟨r'', hrun', -⟩
    rw [hrun] at hrun'
    cases hrun'

/-- A target without a query string behind one with an argument. -/
theorem last_target_keeps_arguments :
    ∃ r : Request, r.getHeader (CString.lit "Host") = some (CString.lit "example.org") ∧
      ¬ ∃ r', runCalls [.set (some (CString.lit "/a?x=1")), .set (some (CString.lit "/b"))] r =
          .ok () r' ∧
        r'.targetView = lastView r.currentHost (some (CString.lit "/b")) := by
  let r : Request := { headers := [⟨CString.lit "Host", some (CString.lit "example.org")⟩] }
  refine ⟨r, by decide, ?_⟩
  rintro ⟨r', hrun, hview⟩
  have hkeys : KeysOfTargets
      [.set (some (CString.lit "/a?x=1")), .set (some (CString.lit "/b"))] := by decide
  obtain ⟨r'', hrun', hafter⟩ := runCalls_apply hkeys r
  rw [hrun] at hrun'
  cases hrun'
  have harguments : r'.arguments = targetArguments (CString.lit "/b") :=
    congrArg TargetView.arguments hview
  rw [hafter.arguments] at harguments
  revert harguments
  decide

end RedStore.RedHttp
