/-
The Allow header as it is built in memory.

`check_allowed_responses` keeps the methods in an array of fifty slots, filled from the front
and ended by NULL, and joins them with `strcat` in a buffer of `BUFSIZ + 1` bytes.  The slots are
those of the list of methods, and the buffer holds their text.
-/
import RedStore.CLib.Block
import RedStore.RedHttp.Fallbacks
import Mathlib.Data.List.Nodup

namespace RedStore.RedHttp
open CLib

variable {A : Type}

/-! ### The array and the buffer -/

/-- `add_allowed_method`: the slots from an index on, and whether the method was added. -/
def addAllowedSlot (method : CString) :
    List (Option CString) → List (Option CString) × Bool
  | [] => ([], false)
  -- add it to the list
  | none :: rest => (some method :: rest, true)
  | some known :: rest =>
    if known = method then (some known :: rest, false)
    else (some known :: (addAllowedSlot method rest).1, (addAllowedSlot method rest).2)

/-- What a handler adds to the slots. -/
def collectSlot (path : Option CString) (allowed : List (Option CString)) (it : Handler A) :
    List (Option CString) :=
  match it.method with
  | none => allowed
  | some method =>
    if path = none ∨ (it.path ≠ none ∧ it.path = path) then
      if (addAllowedSlot method allowed).2 ∧ method = CString.lit "GET" then
        (addAllowedSlot (CString.lit "HEAD") (addAllowedSlot method allowed).1).1
      else (addAllowedSlot method allowed).1
    else allowed

/-- The slots after the first loop of `check_allowed_responses`. -/
def allowedSlots (handlers : List (Handler A)) (path : Option CString) :
    List (Option CString) :=
  handlers.foldl (collectSlot path)
    (some (CString.lit "OPTIONS") :: List.replicate (maxAllowedMethods - 1) none)

/-- The loop over the slots that appends them to the text in the buffer. -/
def joinSlots : List (Option CString) → List UInt8 → Except Fault (List UInt8)
  | [], allowStr => .ok allowStr
  | none :: _, allowStr => .ok allowStr
  | some method :: rest, allowStr => do
    if (← blockStrlen allowStr) + method.strlen + 2 < bufsiz then
      joinSlots rest (← strcat method (← strcat (CString.lit ",") allowStr))
    else joinSlots rest allowStr

/-- The buffer that `check_allowed_responses` adds as the Allow header. -/
def allowBuffer (handlers : List (Handler A)) (path : Option CString) :
    Except Fault (List UInt8) :=
  match allowedSlots handlers path with
  | [] => .error .outOfBounds
  | none :: _ => .error .nullPointer
  | some first :: rest => do
    joinSlots rest (← strcpy first (List.replicate (bufsiz + 1) 0))

/-! ### The slots hold the list of methods -/

/-- The array that holds a list of methods, with as many free slots behind it. -/
def slotsOf (allowed : List CString) (free : ℕ) : List (Option CString) :=
  allowed.map some ++ List.replicate free none

lemma addAllowedSlot_slotsOf (allowed : List CString) (free : ℕ) (method : CString) :
    addAllowedSlot method (slotsOf allowed free) =
      if method ∈ allowed then (slotsOf allowed free, false)
      else if 0 < free then (slotsOf (allowed ++ [method]) (free - 1), true)
      else (slotsOf allowed free, false) := by
  induction allowed with
  | nil => cases free <;> simp [slotsOf, addAllowedSlot, List.replicate_succ]
  | cons known allowed ih =>
    simp only [slotsOf] at ih
    simp only [slotsOf, List.map_cons, List.cons_append, addAllowedSlot, List.mem_cons, ih]
    by_cases hknown : known = method
    · simp [hknown]
    · have hne : method ≠ known := fun h => hknown h.symm
      simp only [hknown, hne, if_false, false_or]
      split_ifs <;> rfl

/-- The array of `check_allowed_responses` for a list of methods. -/
def methodSlots (allowed : List CString) : List (Option CString) :=
  slotsOf allowed (maxAllowedMethods - allowed.length)

/-- Adding a method to the array adds it to the list. -/
lemma addAllowedSlot_methodSlots {allowed : List CString} (method : CString) :
    addAllowedSlot method (methodSlots allowed) =
      (methodSlots (addAllowedMethod allowed method).1, (addAllowedMethod allowed method).2) := by
  rw [methodSlots, addAllowedSlot_slotsOf, addAllowedMethod]
  have hroom : 0 < maxAllowedMethods - allowed.length ↔ allowed.length < maxAllowedMethods := by
    omega
  simp only [hroom]
  split_ifs
  · rfl
  · rw [methodSlots, List.length_append, List.length_singleton, Nat.sub_sub]
  · rfl

lemma collectSlot_methodSlots (path : Option CString) (allowed : List CString)
    (it : Handler A) :
    collectSlot path (methodSlots allowed) it = methodSlots (collectMethod path allowed it) := by
  rw [collectSlot, collectMethod]
  cases it.method with
  | none => rfl
  | some method =>
    simp only [addAllowedSlot_methodSlots]
    split_ifs <;> rfl

lemma allowedSlots_eq (handlers : List (Handler A)) (path : Option CString) :
    allowedSlots handlers path = methodSlots (allowedMethods handlers path) := by
  have hfold : ∀ (rest : List (Handler A)) (allowed : List CString),
      rest.foldl (collectSlot path) (methodSlots allowed) =
        methodSlots (rest.foldl (collectMethod path) allowed) := by
    intro rest
    induction rest with
    | nil => exact fun _ => rfl
    | cons it rest ih =>
      intro allowed
      rw [List.foldl_cons, List.foldl_cons, collectSlot_methodSlots, ih]
  rw [allowedMethods_eq]
  exact hfold handlers [CString.lit "OPTIONS"]

/-! ### The buffer holds their text -/

lemma joinSlots_holds (rest : List CString) (free : ℕ) {block : List UInt8} {str : CString}
    (h : Holds (bufsiz + 1) block str) :
    ∃ block', joinSlots (slotsOf rest free) block = .ok block' ∧
      Holds (bufsiz + 1) block' (rest.foldl allowMethod str) := by
  induction rest generalizing block str with
  | nil =>
    refine ⟨block, ?_, h⟩
    cases free <;> rfl
  | cons method rest ih =>
    rw [slotsOf, List.map_cons, List.cons_append, joinSlots, h.blockStrlen_eq, List.foldl_cons]
    simp only [bind, Except.bind, allowMethod]
    split
    · next hroom =>
      have hcomma : (CString.lit ",").strlen = 1 := by decide
      obtain ⟨block₁, hfirst, hholds⟩ := h.strcat_holds (t := CString.lit ",") (by omega)
      have hlength : (str ++ CString.lit ",").strlen = str.strlen + 1 := by
        simp [CString.strlen, ← hcomma]
      obtain ⟨block₂, hsecond, hholds'⟩ := hholds.strcat_holds (t := method) (by omega)
      simp only [hfirst, hsecond]
      exact ih hholds'
    · exact ih h

/-- The string that is built stays inside of its buffer. -/
lemma allowBuffer_holds (handlers : List (Handler A)) (path : Option CString) :
    ∃ buffer, allowBuffer handlers path = .ok buffer ∧
      Holds (bufsiz + 1) buffer (allowString (allowedMethods handlers path)) := by
  have hmethods := allowedMethods_eq_selectedMethods handlers path
  rw [firstMethods_options] at hmethods
  obtain ⟨block, hcopy, hholds⟩ : ∃ block,
      strcpy (CString.lit "OPTIONS") (List.replicate (bufsiz + 1) 0) = .ok block ∧
        Holds (bufsiz + 1) block (CString.lit "OPTIONS") :=
    strcpy_holds List.length_replicate (by decide)
  obtain ⟨buffer, hjoin, hheld⟩ := joinSlots_holds
    (firstMethods (CString.lit "OPTIONS" :: selectedMethods handlers path)).tail
    (maxAllowedMethods - (allowedMethods handlers path).length) hholds
  refine ⟨buffer, ?_, ?_⟩
  · rw [allowBuffer, allowedSlots_eq, methodSlots]
    rw [hmethods] at hjoin ⊢
    simp only [slotsOf, List.map_cons, List.cons_append, hcopy, bind, Except.bind]
    exact hjoin
  · rw [hmethods]
    exact hheld

/-! ### What the header lists -/

/-- OPTIONS and the methods that are asked for, in the order in which they are registered. -/
def expectedMethods (handlers : List (Handler A)) (path : Option CString) : List CString :=
  (CString.lit "OPTIONS" :: selectedMethods handlers path).eraseDups

/-- No method of the table has a comma. -/
def CommaFree (handlers : List (Handler A)) : Prop :=
  ∀ it ∈ handlers, ∀ method ∈ it.method, ch ',' ∉ method.bytes

lemma roomFor_sublist (str : CString) (methods : List CString) :
    (roomFor str methods).Sublist methods := by
  induction methods generalizing str with
  | nil => exact .slnil
  | cons method methods ih =>
    rw [roomFor]
    split
    · exact (ih _).cons_cons method
    · exact (ih str).cons method

lemma headerItems_of_not_mem {method : CString} (h : ch ',' ∉ method.bytes) :
    headerItems method = [method.bytes] := by
  refine List.splitOnP_eq_singleton fun c hc => ?_
  simp only [beq_eq_false_iff_ne]
  rintro rfl
  exact h hc

lemma flatMap_headerItems {methods : List CString} (h : ∀ m ∈ methods, ch ',' ∉ m.bytes) :
    methods.flatMap headerItems = methods.map CString.bytes := by
  induction methods with
  | nil => rfl
  | cons method methods ih =>
    rw [List.forall_mem_cons] at h
    rw [List.flatMap_cons, headerItems_of_not_mem h.1, ih h.2]
    rfl

lemma nodup_eraseDups {α : Type} [BEq α] [LawfulBEq α] (l : List α) : l.eraseDups.Nodup := by
  induction hn : l.length using Nat.strong_induction_on generalizing l with
  | _ n ih =>
    cases l with
    | nil => exact List.nodup_nil
    | cons a l =>
      have hle := List.length_filter_le (fun b => !b == a) l
      rw [List.eraseDups_cons, List.nodup_cons]
      refine ⟨?_, ih _ (by simp at hn ⊢; omega) _ rfl⟩
      simp [List.mem_eraseDups]

/-- The length of some texts with commas between them. -/
lemma length_intercalate_comma (first : CString) (rest : List CString) :
    ([ch ','].intercalate ((first :: rest).map CString.bytes)).length =
      first.strlen + (rest.map fun method => method.strlen + 1).sum := by
  induction rest generalizing first with
  | nil => simp [CString.strlen]
  | cons method rest ih =>
    have hrest := ih method
    rw [List.map_cons] at hrest ⊢
    rw [List.map_cons, List.intercalate_cons_cons, List.length_append, List.length_append, hrest,
      List.map_cons, List.sum_cons, List.length_singleton]
    simp only [CString.strlen]
    omega

section Listed

variable {handlers : List (Handler A)} {path : Option CString}

lemma comma_not_mem_selectedMethods (h : CommaFree handlers) :
    ∀ m ∈ CString.lit "OPTIONS" :: selectedMethods handlers path, ch ',' ∉ m.bytes := by
  rw [List.forall_mem_cons]
  refine ⟨by decide, fun m hm => ?_⟩
  obtain ⟨it, hit, hm⟩ := List.mem_flatMap.mp hm
  split at hm
  · cases hmethod : it.method with
    | none => simp [hmethod] at hm
    | some method =>
      have hthis : ch ',' ∉ method.bytes := h it hit method hmethod
      rw [hmethod, Option.elim_some, withHead] at hm
      split at hm
      · rcases List.mem_pair.mp hm with rfl | rfl
        · exact hthis
        · decide
      · rwa [List.mem_singleton.mp hm]
  · cases hm

/-- The methods of the header: those that there is room for. -/
lemma headerItems_eq_map (h : CommaFree handlers) :
    headerItems (allowString (allowedMethods handlers path)) =
      (CString.lit "OPTIONS" :: roomFor (CString.lit "OPTIONS")
        (firstMethods (CString.lit "OPTIONS" :: selectedMethods handlers path)).tail).map
          CString.bytes := by
  rw [headerItems_allowString_selected]
  refine flatMap_headerItems (List.forall_mem_cons.mpr ⟨by decide, fun m hm => ?_⟩)
  have hfirst := List.mem_of_mem_tail ((roomFor_sublist _ _).subset hm)
  exact comma_not_mem_selectedMethods h m
    (List.mem_eraseDups.mp (List.mem_of_mem_take hfirst))

lemma nodup_headerItems (h : CommaFree handlers) :
    (headerItems (allowString (allowedMethods handlers path))).Nodup := by
  rw [headerItems_eq_map h]
  refine List.Nodup.map (fun s t => CString.ext) ?_
  have hfirst : (firstMethods (CString.lit "OPTIONS" :: selectedMethods handlers path)).Nodup :=
    (nodup_eraseDups _).sublist (List.take_sublist _ _)
  rw [firstMethods_options] at hfirst
  exact hfirst.sublist ((roomFor_sublist _ _).cons_cons _)

/-- With slots and room for all of them, the methods are all listed. -/
lemma headerItems_eq_expected (h : CommaFree handlers)
    (hfew : (expectedMethods handlers path).length ≤ maxAllowedMethods)
    (hshort : ([ch ','].intercalate
      ((expectedMethods handlers path).map CString.bytes)).length ≤ bufsiz - 2) :
    headerItems (allowString (allowedMethods handlers path)) =
      (expectedMethods handlers path).map CString.bytes := by
  have hall : firstMethods (CString.lit "OPTIONS" :: selectedMethods handlers path) =
      expectedMethods handlers path := List.take_of_length_le hfew
  have hcons : expectedMethods handlers path =
      CString.lit "OPTIONS" :: (expectedMethods handlers path).tail := by
    rw [← hall, firstMethods_options, List.tail_cons]
  rw [hcons, length_intercalate_comma] at hshort
  have hbuf : bufsiz = 8192 := rfl
  rw [headerItems_eq_map h, hall, roomFor_of_fits (by omega), ← hcons]

end Listed

lemma checkAllowedResponses_allow {heap : Heap} {status : Status} {handlers : List (Handler A)}
    {path : Option CString} {response : Response}
    (h : checkAllowedResponses heap status handlers path = .ok response) :
    redhttpHeadersGet response.headers HeaderName.allow.1 =
      some (allowString (allowedMethods handlers path)) := by
  rw [checkAllowedResponses] at h
  split at h
  · cases h
  · next page hpage =>
    obtain rfl := Except.ok.inj h
    refine redhttpHeadersGet_allow ?_ (allowString_strlen_ne_zero handlers path)
    by_cases hok : status = .ok
    · rw [if_pos hok] at hpage
      rw [← Option.some.inj hpage]
      exact Or.inl rfl
    · rw [if_neg hok] at hpage
      exact Or.inr (errorPage_spec hpage).2

/-- The string of `check_allowed_responses` is built inside of its buffer, and its items, which
begin with OPTIONS, are different methods; they are all that are asked for if there are slots and
room for them. -/
theorem checkAllowedResponses_lists (handlers : List (Handler A)) (path : Option CString)
    (hcomma : CommaFree handlers) : ∃ buffer, allowBuffer handlers path = .ok buffer ∧
      buffer.length = bufsiz + 1 ∧
      (∀ heap status response, checkAllowedResponses heap status handlers path = .ok response →
        redhttpHeadersGet response.headers HeaderName.allow.1 = some (CString.ofBytes buffer)) ∧
      (headerItems (CString.ofBytes buffer)).head? = some (bytesOf "OPTIONS") ∧
      (headerItems (CString.ofBytes buffer)).Nodup ∧
      ((expectedMethods handlers path).length ≤ maxAllowedMethods →
        ([ch ','].intercalate ((expectedMethods handlers path).map CString.bytes)).length ≤
          bufsiz - 2 →
        headerItems (CString.ofBytes buffer) =
          (expectedMethods handlers path).map CString.bytes) := by
  obtain ⟨buffer, hbuffer, hholds⟩ := allowBuffer_holds handlers path
  refine ⟨buffer, hbuffer, hholds.1, ?_⟩
  rw [hholds.ofBytes_eq]
  refine ⟨fun heap status response => checkAllowedResponses_allow, ?_, nodup_headerItems hcomma,
    headerItems_eq_expected hcomma⟩
  rw [headerItems_eq_map hcomma]
  rfl

/-- A table with a path for GET and POST, and another path. -/
def threeRoutes : List (Handler Unit) := [
  ⟨some (CString.lit "PUT"), some (CString.lit "/foobar"), pure none⟩,
  ⟨some (CString.lit "GET"), some (CString.lit "/hello"), pure none⟩,
  ⟨some (CString.lit "POST"), some (CString.lit "/hello"), pure none⟩]

theorem checkAllowedResponses_lists_hello :
    ∃ buffer, allowBuffer threeRoutes (some (CString.lit "/hello")) = .ok buffer ∧
      headerItems (CString.ofBytes buffer) =
        [bytesOf "OPTIONS", bytesOf "GET", bytesOf "HEAD", bytesOf "POST"] := by
  have hcomma : CommaFree threeRoutes := by
    unfold CommaFree
    decide
  obtain ⟨buffer, hbuffer, -, -, -, -, hall⟩ :=
    checkAllowedResponses_lists threeRoutes (some (CString.lit "/hello")) hcomma
  refine ⟨buffer, hbuffer, (hall ?_ ?_).trans ?_⟩
  · decide
  · decide
  · decide

end RedStore.RedHttp
