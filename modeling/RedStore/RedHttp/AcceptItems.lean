/-
An Accept header, item by item.

The number behind `q=` is read from the header as a whole, not from the item.  What stands
behind the item starts with a comma, which no number goes on with; so the quality of an item
depends on the item alone, and parsing a header is adding its items one after the other.
-/
import RedStore.RedHttp.NegotiateSort

namespace RedStore.RedHttp
open CLib

/-! ### Where a number ends -/

/-- The characters that a number is written with. -/
def isNumberChar (c : UInt8) : Bool :=
  isxdigit c || c == ch '.' || tolower c == ch 'e' || tolower c == ch 'p' || tolower c == ch 'x' ||
    c == ch '+' || c == ch '-'

/-- What follows a number does not continue it. -/
def EndsNumber (rest : List UInt8) : Prop := ∀ c ∈ rest.head?, isNumberChar c = false

/-- The characters of a number, in one go: whatever number char a test accepts, what follows
the number does not pass it. -/
lemma EndsNumber.head {rest : List UInt8} (h : EndsNumber rest) {p : UInt8 → Bool}
    (hp : ∀ c, isNumberChar c = false → p c = false) : ∀ c ∈ rest.head?, p c = false :=
  fun c hc => hp c (h c hc)

lemma isdigit_of_not_number (c : UInt8) (h : isNumberChar c = false) : isdigit c = false := by
  revert h
  exact forall_uint8 (p := fun c => isNumberChar c = false → isdigit c = false)
    (by decide +kernel) c

lemma isxdigit_of_not_number (c : UInt8) (h : isNumberChar c = false) : isxdigit c = false := by
  revert h
  exact forall_uint8 (p := fun c => isNumberChar c = false → isxdigit c = false)
    (by decide +kernel) c

/-- What ends a number is neither a point, nor a sign, nor the marker of an exponent. -/
lemma ne_of_not_number {c : UInt8} (h : isNumberChar c = false) :
    c ≠ ch '.' ∧ c ≠ ch '+' ∧ c ≠ ch '-' ∧ tolower c ≠ ch 'e' ∧ tolower c ≠ ch 'p' ∧
      tolower c ≠ ch 'x' ∧ c ≠ ch '0' := by
  revert h
  exact forall_uint8 (p := fun c => isNumberChar c = false → c ≠ ch '.' ∧ c ≠ ch '+' ∧
    c ≠ ch '-' ∧ tolower c ≠ ch 'e' ∧ tolower c ≠ ch 'p' ∧ tolower c ≠ ch 'x' ∧ c ≠ ch '0')
    (by decide +kernel) c

/-! ### The parts of a number -/

/-- The sign in front of a number, and what follows it. -/
def signOf (s : List UInt8) : Bool × List UInt8 :=
  match s with
  | c :: s' => if c = ch '-' then (true, s') else if c = ch '+' then (false, s') else (false, s)
  | [] => (false, s)

/-- The digits behind a point, and what follows them. -/
def fractionOf (isDigit : UInt8 → Bool) (s : List UInt8) : List UInt8 × List UInt8 :=
  match s with
  | c :: s' => if c = ch '.' then (s'.takeWhile isDigit, s'.dropWhile isDigit) else ([], s)
  | [] => ([], s)

/-- A number that starts with `0x`. -/
def hexadecimalOf (s : List UInt8) : Option ℚ :=
  match s with
  | c :: x :: s' =>
    if c = ch '0' ∧ tolower x = ch 'x' then numeral 16 isxdigit hexValue 2 'p' s' else none
  | _ => none

lemma exponent_cons (marker : Char) (c : UInt8) (s : List UInt8) : exponent marker (c :: s) =
    if tolower c = ch marker then
      let n : ℤ := digitsIn 10 decimalValue ((signOf s).2.takeWhile isdigit)
      if (signOf s).1 then -n else n
    else 0 := rfl

lemma numeral_eq (base : ℕ) (isDigit : UInt8 → Bool) (value : UInt8 → ℕ) (scale : ℕ)
    (marker : Char) (s : List UInt8) : numeral base isDigit value scale marker s =
      let whole := s.takeWhile isDigit
      let (fraction, rest) := fractionOf isDigit (s.dropWhile isDigit)
      if whole = [] ∧ fraction = [] then none
      else
        let mantissa : ℚ := digitsIn base value (whole ++ fraction)
        some (mantissa / (base : ℚ) ^ fraction.length * (scale : ℚ) ^ exponent marker rest) := rfl

lemma strtod_eq (s : List UInt8) : strtod s =
    let (negative, s) := signOf (s.dropWhile isspace)
    ((hexadecimalOf s).or (numeral 10 isdigit decimalValue 10 'e' s)).map fun d =>
      if negative then -d else d := rfl

section Ends

variable {rest : List UInt8} (hrest : EndsNumber rest)
include hrest

lemma signOf_append (v : List UInt8) : signOf (v ++ rest) = (signOf v).map id (· ++ rest) := by
  cases v with
  | nil =>
    cases rest with
    | nil => rfl
    | cons c rest =>
      obtain ⟨-, hplus, hminus, -⟩ := ne_of_not_number (hrest c rfl)
      simp [signOf, hplus, hminus]
  | cons c v =>
    simp only [List.cons_append, signOf]
    split_ifs <;> rfl

lemma exponent_append {marker : Char} (hmarker : ch marker = ch 'e' ∨ ch marker = ch 'p')
    (v : List UInt8) : exponent marker (v ++ rest) = exponent marker v := by
  cases v with
  | nil =>
    cases rest with
    | nil => rfl
    | cons c rest =>
      obtain ⟨-, -, -, he, hp, -⟩ := ne_of_not_number (hrest c rfl)
      have hne : tolower c ≠ ch marker := by
        rcases hmarker with h | h <;> rw [h]
        · exact he
        · exact hp
      rw [List.nil_append, exponent_cons, if_neg hne]
      rfl
  | cons c v =>
    have hdigit := hrest.head isdigit_of_not_number
    simp only [List.cons_append, exponent_cons, signOf_append hrest v, Prod.map_fst, Prod.map_snd,
      id_eq, takeWhile_append_of_head hdigit]

lemma fractionOf_append {isDigit : UInt8 → Bool}
    (hdigit : ∀ c, isNumberChar c = false → isDigit c = false) (v : List UInt8) :
    fractionOf isDigit (v ++ rest) = (fractionOf isDigit v).map id (· ++ rest) := by
  have hhead := hrest.head hdigit
  cases v with
  | nil =>
    cases rest with
    | nil => rfl
    | cons c rest =>
      obtain ⟨hpoint, -⟩ := ne_of_not_number (hrest c rfl)
      simp [fractionOf, hpoint]
  | cons c v =>
    simp only [List.cons_append, fractionOf, takeWhile_append_of_head hhead,
      dropWhile_append_of_head hhead]
    split_ifs <;> rfl

lemma numeral_append {isDigit : UInt8 → Bool} {marker : Char} (base : ℕ) (value : UInt8 → ℕ)
    (scale : ℕ) (hdigit : ∀ c, isNumberChar c = false → isDigit c = false)
    (hmarker : ch marker = ch 'e' ∨ ch marker = ch 'p') (v : List UInt8) :
    numeral base isDigit value scale marker (v ++ rest) =
      numeral base isDigit value scale marker v := by
  have hhead := hrest.head hdigit
  simp only [numeral_eq, takeWhile_append_of_head hhead, dropWhile_append_of_head hhead,
    fractionOf_append hrest hdigit, Prod.map_fst, Prod.map_snd, id_eq,
    exponent_append hrest hmarker]

lemma hexadecimalOf_append (v : List UInt8) :
    hexadecimalOf (v ++ rest) = hexadecimalOf v := by
  match v with
  | [] =>
    match rest with
    | [] => rfl
    | [_] => rfl
    | c :: x :: rest =>
      obtain ⟨-, -, -, -, -, -, hzero⟩ := ne_of_not_number (hrest c rfl)
      simp [hexadecimalOf, hzero]
  | [c] =>
    match rest with
    | [] => rfl
    | x :: rest =>
      obtain ⟨-, -, -, -, -, hx, -⟩ := ne_of_not_number (hrest x rfl)
      simp [hexadecimalOf, hx]
  | c :: x :: v =>
    simp only [List.cons_append, hexadecimalOf,
      numeral_append hrest 16 hexValue 2 isxdigit_of_not_number (Or.inr rfl)]

/-- A number does not depend on what follows it. -/
lemma strtod_append {v : List UInt8}
    (hv : v.dropWhile isspace ≠ [] ∨ ∀ c ∈ rest.head?, isspace c = false) :
    strtod (v ++ rest) = strtod v := by
  have hskip : (v ++ rest).dropWhile isspace = v.dropWhile isspace ++ rest := by
    rcases hv with hne | hhead
    · rw [List.dropWhile_append, if_neg (by simpa using hne)]
    · exact dropWhile_append_of_head hhead v
  simp only [strtod_eq, hskip, signOf_append hrest, Prod.map_fst, Prod.map_snd, id_eq,
    hexadecimalOf_append hrest,
    numeral_append hrest 10 decimalValue 10 isdigit_of_not_number (Or.inl rfl)]

end Ends

/-! ### The quality of an item -/

/-- What stands behind an item: nothing, or its comma. -/
def BehindItem (rest : List UInt8) : Prop := rest = [] ∨ ∃ t, rest = ch ',' :: t

lemma BehindItem.endsNumber {rest : List UInt8} (h : BehindItem rest) : EndsNumber rest := by
  rcases h with rfl | ⟨t, rfl⟩
  · simp [EndsNumber]
  · intro c hc
    obtain rfl := Option.some.inj hc
    decide

lemma BehindItem.not_space {rest : List UInt8} (h : BehindItem rest) :
    ∀ c ∈ rest.head?, isspace c = false := by
  rcases h with rfl | ⟨t, rfl⟩
  · simp
  · intro c hc
    obtain rfl := Option.some.inj hc
    decide

section Behind

variable {rest : List UInt8} (hrest : BehindItem rest)
include hrest

lemma qualityAt_append (c e : UInt8) (s : List UInt8) (q : ℕ) :
    qualityAt (c :: e :: s ++ rest) q = qualityAt (c :: e :: s) q := by
  simp only [List.cons_append, qualityAt, strtod_append hrest.endsNumber (Or.inr hrest.not_space)]

/-- The scan for `q=` stays in its item. -/
lemma scanQuality_append (s : List UInt8) (q : ℕ) :
    scanQuality s.length (s ++ rest) q = scanQuality s.length s q := by
  induction s generalizing q with
  | nil => cases rest <;> rfl
  | cons c s ih =>
    rw [List.length_cons, List.cons_append, scanQuality, scanQuality]
    split_ifs with hleft
    · obtain ⟨e, s', rfl⟩ : ∃ e s', s = e :: s' :=
        List.exists_cons_of_length_pos (by omega)
      have hhere : qualityAt (c :: (e :: s' ++ rest)) q = qualityAt (c :: e :: s') q :=
        qualityAt_append hrest c e s' q
      rw [hhere]
      exact ih _
    · rfl

/-- An item in front of a comma is parsed as it is alone. -/
lemma parseItem_append {item : List UInt8} (hitem : ch ',' ∉ item) :
    parseItem (item ++ rest) = parseItem item := by
  have htake : (item ++ rest).takeWhile (· != ch ',') = item := by
    rw [takeWhile_bne_append hitem]
    rcases hrest with rfl | ⟨t, rfl⟩ <;> simp
  have hself : item.takeWhile (· != ch ',') = item := takeWhile_bne_eq_self_iff.mpr hitem
  have hle : (item.takeWhile (· != ch ';')).length ≤ item.length :=
    (List.takeWhile_sublist _).length_le
  have hscan := scanQuality_append hrest (item.drop (item.takeWhile (· != ch ';')).length) 10
  rw [List.length_drop] at hscan
  simp only [parseItem, htake, hself, List.drop_append_of_le_length hle, hscan]

end Behind

/-! ### A header -/

lemma not_comma_of_mem_negotiateItems {s item : List UInt8} (h : item ∈ negotiateItems s) :
    ch ',' ∉ item := by
  induction s using delimited_induction (ch ',') with
  | last first hfirst =>
    rw [negotiateItems_last hfirst, List.mem_singleton] at h
    exact h ▸ hfirst
  | more first rest hfirst ih =>
    rw [negotiateItems_more hfirst, List.mem_cons] at h
    rcases h with rfl | h
    · exact hfirst
    · exact ih h

lemma subset_of_mem_negotiateItems {s item : List UInt8} (h : item ∈ negotiateItems s) :
    item ⊆ s := by
  induction s using delimited_induction (ch ',') with
  | last first hfirst =>
    rw [negotiateItems_last hfirst, List.mem_singleton] at h
    exact h ▸ List.Subset.refl _
  | more first rest hfirst ih =>
    rw [negotiateItems_more hfirst, List.mem_cons] at h
    rcases h with rfl | h
    · exact List.subset_append_left _ _
    · exact fun c hc => by simp [ih h hc]

/-- Items that are joined by commas are the items of the header they make. -/
lemma negotiateItems_join {items : List (List UInt8)} (h : ∀ item ∈ items, ch ',' ∉ item)
    (hne : items ≠ []) : negotiateItems ([ch ','].intercalate items) = items :=
  List.splitOn_intercalate (ch ',') h hne

lemma mem_join {items : List (List UInt8)} {c : UInt8} (h : c ∈ [ch ','].intercalate items) :
    c = ch ',' ∨ ∃ item ∈ items, c ∈ item := by
  induction items with
  | nil => cases h
  | cons item items ih =>
    cases items with
    | nil => exact Or.inr ⟨item, by simp, by simpa using h⟩
    | cons next items =>
      rw [List.intercalate_cons_cons, List.append_assoc, List.mem_append, List.mem_append,
        List.mem_singleton] at h
      rcases h with h | h | h
      · exact Or.inr ⟨item, by simp, h⟩
      · exact Or.inl h
      · rcases ih h with hcomma | ⟨item', hitem', hc⟩
        · exact Or.inl hcomma
        · exact Or.inr ⟨item', by simp [hitem'], hc⟩

/-- The call that an item makes. -/
def itemCall (item : List UInt8) : AddCall := ⟨itemType item, (parseItem item).2⟩

/-- Parsing a header adds its items, one after the other. -/
theorem parseItems_eq_run (s : List UInt8) (first : List Negotiate) :
    parseItems s first = AddCall.run ((negotiateItems s).map itemCall) first := by
  induction s using delimited_induction (ch ',') generalizing first with
  | last item hitem =>
    rw [parseItems_last hitem, negotiateItems_last hitem, AddCall.run]
    exact (bind_pure _).symm
  | more item rest hitem ih =>
    have hrest : BehindItem (ch ',' :: rest) := Or.inr ⟨rest, rfl⟩
    rw [parseItems_more hitem, parseItem_append hrest hitem, negotiateItems_more hitem,
      List.map_cons, AddCall.run, List.foldlM_cons]
    exact bind_congr fun first' => ih first'

/-- A parsed list is the stable sort of the entries of its items. -/
lemma redhttpNegotiateParse_stable {s : CString} (hs : s.bytes ≠ [])
    (h : ∀ item ∈ negotiateItems s.bytes, ItemNamed item) :
    ∃ list, redhttpNegotiateParse (some s) = .ok list ∧
      StableSort Negotiate.q ((negotiateItems s.bytes).map fun item => (itemCall item).entry)
        list := by
  have haddable : ∀ call ∈ (negotiateItems s.bytes).map itemCall, call.Addable := by
    rw [List.forall_mem_map]
    exact fun item hitem => ⟨h item hitem, scanQuality_le _ _ le_rfl⟩
  have hnil : StableSort Negotiate.q [] [] := StableSort.refl List.Pairwise.nil
  obtain ⟨list, hrun, hstable⟩ := AddCall.run_stable haddable hnil
  rw [List.nil_append, List.map_map] at hstable
  refine ⟨list, ?_, hstable⟩
  rw [redhttpNegotiateParse, if_neg hs, parseItems_eq_run, hrun]

end RedStore.RedHttp
