/-
Which Accept headers can be parsed.

`redhttp_negotiate_add` asserts that an item has a length, and trims it from both ends
without looking at that length again.  The two loops are given here as they stand, over the
bytes that belong to the item: a read of any other byte, which is also where the unsigned
length wraps, is a fault.  They get through exactly when the item holds something besides
white space, so that a header is parsed exactly when each of its items does in front of its
parameters.
-/
import RedStore.RedHttp.NegotiateChoose

namespace RedStore.RedHttp
open CLib

/-! ### The trimming loops -/

/-- `while (isspace(*type)) { type++; type_len--; }`, on the bytes from `type` on that belong
to the item. -/
def skipFront : List UInt8 → Except Fault (List UInt8)
  -- `type_len` is 0
  | [] => .error .outOfBounds
  | c :: type => if isspace c then skipFront type else .ok (c :: type)

/-- `while (isspace(type[type_len - 1])) type_len--;`, by `type_len`. -/
def skipBack (type : List UInt8) : ℕ → Except Fault ℕ
  -- `type_len - 1` is above every index
  | 0 => .error .outOfBounds
  | typeLen + 1 =>
    match type[typeLen]? with
    | none => .error .outOfBounds
    | some c => if isspace c then skipBack type typeLen else .ok (typeLen + 1)

/-- `redhttp_strndup`. -/
def redhttpStrndup (str1 : List UInt8) (str1Len : ℕ) : CString := CString.ofBytes (str1.take str1Len)

/-- The trimming of `redhttp_negotiate_add` and the copy that it makes. -/
def trimLoops (type : List UInt8) : Except Fault CString := do
  let type ← skipFront type
  let typeLen ← skipBack type type.length
  .ok (redhttpStrndup type typeLen)

lemma skipFront_eq (type : List UInt8) : skipFront type =
    if type.dropWhile isspace = [] then .error .outOfBounds
    else .ok (type.dropWhile isspace) := by
  induction type with
  | nil => rfl
  | cons c type ih =>
    rw [skipFront]
    by_cases hc : isspace c = true
    · rw [if_pos hc, ih, List.dropWhile_cons_of_pos hc]
    · rw [if_neg hc, List.dropWhile_cons_of_neg hc, if_neg (List.cons_ne_nil _ _)]

/-- The second loop stops behind the last byte that is no white space. -/
lemma skipBack_append (type rest : List UInt8) : skipBack (type ++ rest) type.length =
    if type.rdropWhile isspace = [] then .error .outOfBounds
    else .ok (type.rdropWhile isspace).length := by
  induction type using List.reverseRecOn generalizing rest with
  | nil => rfl
  | append_singleton type c ih =>
    have hget : (type ++ [c] ++ rest)[type.length]? = some c := by simp
    rw [List.length_append, List.length_singleton, skipBack, hget]
    by_cases hc : isspace c = true
    · have hassoc : type ++ [c] ++ rest = type ++ ([c] ++ rest) := List.append_assoc _ _ _
      simp only [hc, if_true, hassoc, ih, List.rdropWhile_concat_pos isspace type c hc]
    · simp only [hc, Bool.false_eq_true, if_false, List.rdropWhile_concat_neg isspace type c hc]
      simp

lemma rdropWhile_dropWhile_ne_nil {type : List UInt8} (h : type.dropWhile isspace ≠ []) :
    (type.dropWhile isspace).rdropWhile isspace ≠ [] := by
  intro hnil
  have hhead := List.head_dropWhile_not isspace h
  have hall := List.rdropWhile_eq_nil_iff.mp hnil _ (List.head_mem h)
  simp [hall] at hhead

/-- The loops trim an item as `trimType` says. -/
theorem trimLoops_eq (type : List UInt8) : trimLoops type = trimType type := by
  rw [trimLoops, trimType, skipFront_eq]
  by_cases h : type.dropWhile isspace = []
  · simp only [h, if_true]
    rfl
  · have hback := skipBack_append (type.dropWhile isspace) []
    rw [List.append_nil, if_neg (rdropWhile_dropWhile_ne_nil h)] at hback
    have htake : (type.dropWhile isspace).take
        ((type.dropWhile isspace).rdropWhile isspace).length =
          (type.dropWhile isspace).rdropWhile isspace :=
      List.prefix_iff_eq_take.mp (List.rdropWhile_prefix isspace _) |>.symm
    simp only [h, if_false, bind, Except.bind, hback, redhttpStrndup, htake]

/-! ### Headers -/

/-- The trimming gets through exactly on an item with something besides white space. -/
lemma trimType_ok_iff {type : List UInt8} :
    (∃ t, trimType type = .ok t) ↔ ∃ c ∈ type, isspace c = false := by
  have hne : type.dropWhile isspace ≠ [] ↔ ∃ c ∈ type, isspace c = false := by
    rw [ne_eq, List.dropWhile_eq_nil_iff]
    push Not
    simp
  rw [← hne, trimType]
  by_cases h : type.dropWhile isspace = [] <;> simp [h]

/-- An item is added exactly when it names something. -/
lemma redhttpNegotiateAdd_ok_iff {item : List UInt8} {first : List Negotiate} {q : ℕ}
    (hq : q ≤ 10) :
    (∃ list, redhttpNegotiateAdd first (itemType item) q = .ok list) ↔ ItemNamed item := by
  constructor
  · rintro ⟨list, h⟩
    rw [redhttpNegotiateAdd] at h
    split at h
    · cases h
    · cases htrim : trimType (itemType item) with
      | error e => simp [htrim, bind, Except.bind] at h
      | ok t => exact trimType_ok_iff.mp ⟨t, htrim⟩
  · exact fun h => ⟨_, redhttpNegotiateAdd_of_named h first hq⟩

/-- Every item of a header is added or ends the parsing with a fault. -/
lemma itemNamed_of_parseItems (s : List UInt8) {first list : List Negotiate}
    (h : parseItems s first = .ok list) : ∀ item ∈ negotiateItems s, ItemNamed item := by
  induction s using delimited_induction (ch ',') generalizing first with
  | last item hitem =>
    rw [parseItems_last hitem] at h
    rw [negotiateItems_last hitem, List.forall_mem_singleton]
    exact (redhttpNegotiateAdd_ok_iff (parseItem_quality_le _)).mp ⟨list, h⟩
  | more item rest hitem ih =>
    rw [parseItems_more hitem] at h
    rw [negotiateItems_more hitem, List.forall_mem_cons]
    cases hadd : redhttpNegotiateAdd first (itemType item)
        (parseItem (item ++ ch ',' :: rest)).2 with
    | error e => simp [hadd, bind, Except.bind] at h
    | ok first' =>
      rw [hadd] at h
      exact ⟨(redhttpNegotiateAdd_ok_iff (parseItem_quality_le _)).mp ⟨first', hadd⟩, ih h⟩

/-- A header is parsed, with every assertion met and every read inside its item, exactly when
each of its items has something besides white space in front of its parameters. -/
theorem redhttpNegotiateParse_ok_iff (str : Option CString) :
    (∃ list, redhttpNegotiateParse str = .ok list) ↔
      ∀ s ∈ str, s.bytes ≠ [] → ∀ item ∈ negotiateItems s.bytes, ItemNamed item := by
  cases str with
  | none => simp [redhttpNegotiateParse]
  | some s =>
    simp only [redhttpNegotiateParse, Option.mem_def, Option.some.injEq, forall_eq']
    by_cases hs : s.bytes = []
    · simp [hs]
    · simp only [hs, if_false, ne_eq, not_false_eq_true, forall_true_left]
      constructor
      · rintro ⟨list, h⟩
        exact itemNamed_of_parseItems s.bytes h
      · intro h
        obtain ⟨list, hlist, -⟩ := parseItems_types s.bytes [] h
        exact ⟨list, hlist⟩

/-- An empty item violates the assertion on the length, and one of white space is left by the
trimming loops. -/
theorem redhttpNegotiateParse_degenerate_items :
    redhttpNegotiateParse (some (CString.lit ";q=0.5")) = .error .assertion ∧
      redhttpNegotiateParse (some (CString.lit " ")) = .error .outOfBounds := by
  have hempty : redhttpNegotiateAdd [] (parseItem (CString.lit ";q=0.5").bytes).1
      (parseItem (CString.lit ";q=0.5").bytes).2 = .error .assertion := by
    have htype : (parseItem (CString.lit ";q=0.5").bytes).1.length = 0 := by decide
    rw [redhttpNegotiateAdd, if_pos (Or.inl htype)]
  have hspace : redhttpNegotiateAdd [] (parseItem (CString.lit " ").bytes).1
      (parseItem (CString.lit " ").bytes).2 = .error .outOfBounds := by decide
  exact ⟨parseItems_of_error hempty, parseItems_of_error hspace⟩

end RedStore.RedHttp
