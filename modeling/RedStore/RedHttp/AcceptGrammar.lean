/-
The grammar of Accept headers, and what `redhttp_negotiate_parse` hears of it.

An item asks for a quality with a parameter that is named `q`.  The parser takes any `q=` for
one, so also the end of a longer name, and the last one of several wins; and it stops three
characters in front of the end of the item, where a value of one character may still stand.
What it hears of an item is the last parameter that it takes for a quality and does not miss.
-/
import RedStore.RedHttp.AcceptItems
import Mathlib.Algebra.Order.Round

namespace RedStore.RedHttp
open CLib

/-! ### The grammar -/

/-- The characters of a token: neither white space nor a separator. -/
def isTokenChar (c : UInt8) : Bool :=
  !isspace c && c != 0 && c != ch ',' && c != ch ';' && c != ch '='

structure Token where
  bytes : List UInt8
  nonempty : bytes ≠ []
  chars : ∀ c ∈ bytes, isTokenChar c = true

/-- Optional white space. -/
structure Spaces where
  bytes : List UInt8
  chars : ∀ c ∈ bytes, isspace c = true

def digitChar (d : Fin 10) : UInt8 := 48 + UInt8.ofNat d

/-- A quality value: 0 with up to three digits behind a point, or 1 with up to three zeros. -/
inductive Qvalue where
  | zero (digits : List (Fin 10)) (short : digits.length ≤ 3)
  | one (zeros : ℕ) (short : zeros ≤ 3)

namespace Qvalue

def whole : Qvalue → Fin 10
  | zero _ _ => 0
  | one _ _ => 1

/-- The digits behind the point. -/
def digits : Qvalue → List (Fin 10)
  | zero digits _ => digits
  | one zeros _ => List.replicate zeros 0

/-- How the value is written; without digits there is no point. -/
def text (v : Qvalue) : List UInt8 :=
  digitChar v.whole :: if v.digits.isEmpty then [] else ch '.' :: v.digits.map digitChar

/-- The value of digits behind a point. -/
def fraction : List (Fin 10) → ℚ
  | [] => 0
  | d :: digits => ((d : ℕ) + fraction digits) / 10

def value (v : Qvalue) : ℚ := (v.whole : ℕ) + fraction v.digits

/-- Ten times the value, rounded to the nearest integer. -/
def tenths (v : Qvalue) : ℕ := (round (10 * v.value)).toNat

lemma text_chars (v : Qvalue) : ∀ c ∈ v.text, isTokenChar c = true := by
  have hdigit : ∀ d : Fin 10, isTokenChar (digitChar d) = true := by decide
  have hpoint : isTokenChar (ch '.') = true := by decide
  rw [text, List.forall_mem_cons]
  refine ⟨hdigit _, ?_⟩
  split_ifs
  · exact fun c hc => absurd hc List.not_mem_nil
  · rw [List.forall_mem_cons, List.forall_mem_map]
    exact ⟨hpoint, fun d _ => hdigit d⟩

/-- The value as a token. -/
def token (v : Qvalue) : Token := ⟨v.text, List.cons_ne_nil _ _, v.text_chars⟩

end Qvalue

/-- The name of the parameter with the quality. -/
def qualityName : Token := ⟨bytesOf "q", by decide, forall_mem_of_all (by decide)⟩

/-- The name of a parameter and its value. -/
inductive Pair where
  | quality (v : Qvalue)
  | other (name value : Token) (ne : name.bytes ≠ bytesOf "q")

namespace Pair

def name : Pair → Token
  | quality _ => qualityName
  | other name _ _ => name

def value : Pair → Token
  | quality v => v.token
  | other _ value _ => value

def qvalue : Pair → Option Qvalue
  | quality v => some v
  | other _ _ _ => none

end Pair

/-- A parameter with the white space around it. -/
structure Parameter where
  before : Spaces
  pair : Pair
  behind : Spaces

def Parameter.text (p : Parameter) : List UInt8 :=
  ch ';' :: (p.before.bytes ++ p.pair.name.bytes ++ ch '=' :: (p.pair.value.bytes ++ p.behind.bytes))

/-- An item: a type and its parameters, of which one at most is a quality. -/
structure AcceptItem where
  before : Spaces
  type : Token
  behind : Spaces
  params : List Parameter
  one_quality : (params.filterMap fun p => p.pair.qvalue).length ≤ 1

namespace AcceptItem

def text (item : AcceptItem) : List UInt8 :=
  item.before.bytes ++ item.type.bytes ++ item.behind.bytes ++ item.params.flatMap Parameter.text

/-- The quality that the item asks for, in tenths. -/
def askedTenths (item : AcceptItem) : ℕ :=
  ((item.params.filterMap fun p => p.pair.qvalue).head?.map Qvalue.tenths).getD 10

/-- The entry that the item asks for. -/
def asked (item : AcceptItem) : Negotiate := ⟨CString.ofBytes item.type.bytes, item.askedTenths⟩

end AcceptItem

/-- The header with some items. -/
def acceptHeader (items : List AcceptItem) : CString :=
  CString.ofBytes ([ch ','].intercalate (items.map AcceptItem.text))

/-! ### What is heard -/

/-- The tenths that a parameter is taken for: its name ends in `q`, and its value is a number
from 0 to 1. -/
def Parameter.tenths (p : Parameter) : Option ℕ :=
  if p.pair.name.bytes.getLast? = some (ch 'q') then
    match strtod p.pair.value.bytes with
    | some d => if 0 ≤ d ∧ d ≤ 1 then some (redhttpNegotiateRound (d * 10)) else none
    | none => none
  else none

/-- The value has one character, and nothing stands behind it. -/
def Parameter.Short (p : Parameter) : Prop :=
  p.pair.value.bytes.length = 1 ∧ p.behind.bytes = []

instance (p : Parameter) : Decidable p.Short := inferInstanceAs (Decidable (_ ∧ _))

/-- The qualities that are heard, one after the other; a short one at the end of the item is
missed. -/
def heardTenths : List Parameter → List ℕ
  | [] => []
  | p :: params =>
    if params.isEmpty ∧ p.Short then [] else p.tenths.toList ++ heardTenths params

/-- The entry that is heard of an item: the last quality wins. -/
def AcceptItem.heard (item : AcceptItem) : Negotiate :=
  ⟨CString.ofBytes item.type.bytes, (heardTenths item.params).getLast?.getD 10⟩

/-! ### Quality values are read as they are meant -/

lemma digitChar_isdigit (d : Fin 10) : isdigit (digitChar d) = true := by
  revert d
  decide

lemma decimalValue_digitChar (d : Fin 10) : decimalValue (digitChar d) = d := by
  revert d
  decide

lemma foldl_digits (digits : List (Fin 10)) (n : ℕ) :
    (((digits.map digitChar).foldl (fun n c => 10 * n + decimalValue c) n : ℕ) : ℚ) =
      (n + Qvalue.fraction digits) * 10 ^ digits.length := by
  induction digits generalizing n with
  | nil => simp [Qvalue.fraction]
  | cons d digits ih =>
    rw [List.map_cons, List.foldl_cons, ih, decimalValue_digitChar, Qvalue.fraction,
      List.length_cons, pow_succ]
    push_cast
    ring

lemma fraction_nonneg (digits : List (Fin 10)) : 0 ≤ Qvalue.fraction digits := by
  induction digits with
  | nil => rfl
  | cons d digits ih =>
    rw [Qvalue.fraction]
    positivity

lemma fraction_le (digits : List (Fin 10)) : Qvalue.fraction digits ≤ 1 := by
  induction digits with
  | nil => exact zero_le_one
  | cons d digits ih =>
    have hd : ((d : ℕ) : ℚ) ≤ 9 := by exact_mod_cast Nat.le_of_lt_succ d.isLt
    rw [Qvalue.fraction]
    linarith

lemma fraction_replicate (zeros : ℕ) : Qvalue.fraction (List.replicate zeros 0) = 0 := by
  induction zeros with
  | zero => rfl
  | succ zeros ih =>
    rw [List.replicate_succ, Qvalue.fraction, ih]
    norm_num

lemma Qvalue.value_mem (v : Qvalue) : 0 ≤ v.value ∧ v.value ≤ 1 := by
  cases v with
  | zero digits short =>
    simp only [value, whole, Qvalue.digits, Fin.val_zero, Nat.cast_zero, zero_add]
    exact ⟨fraction_nonneg digits, fraction_le digits⟩
  | one zeros short => simp [value, whole, Qvalue.digits, fraction_replicate]

/-- The digits behind the point of a quality value. -/
lemma fractionOf_text (v : Qvalue) :
    fractionOf isdigit (if v.digits.isEmpty then [] else ch '.' :: v.digits.map digitChar) =
      (v.digits.map digitChar, []) := by
  have hall : ∀ c ∈ v.digits.map digitChar, isdigit c = true := by
    rw [List.forall_mem_map]
    exact fun d _ => digitChar_isdigit d
  split_ifs with hnil
  · rw [List.isEmpty_iff.mp hnil]
    rfl
  · simp only [fractionOf, if_true, List.takeWhile_eq_self_iff.mpr hall,
      List.dropWhile_eq_nil_iff.mpr hall]

/-- `strtod` reads a quality value as what it stands for. -/
lemma strtod_text (v : Qvalue) : strtod v.text = some v.value := by
  have hlead : ∀ d : Fin 10, isspace (digitChar d) = false ∧ digitChar d ≠ ch '-' ∧
      digitChar d ≠ ch '+' := by decide
  obtain ⟨hspace, hminus, hplus⟩ := hlead v.whole
  have hdigit := digitChar_isdigit v.whole
  have hskip : v.text.dropWhile isspace = v.text :=
    List.dropWhile_cons_of_neg (by simp [hspace])
  have hsign : signOf v.text = (false, v.text) := by
    simp [signOf, Qvalue.text, hminus, hplus]
  have hhex : hexadecimalOf v.text = none := by
    have hpoint : tolower (ch '.') ≠ ch 'x' := by decide
    rw [Qvalue.text]
    split_ifs
    · rfl
    · simp [hexadecimalOf, hpoint]
  have hwhole : v.text.takeWhile isdigit = [digitChar v.whole] ∧
      v.text.dropWhile isdigit =
        if v.digits.isEmpty then [] else ch '.' :: v.digits.map digitChar := by
    have hpoint : isdigit (ch '.') = false := by decide
    rw [Qvalue.text, List.takeWhile_cons_of_pos hdigit, List.dropWhile_cons_of_pos hdigit]
    split_ifs
    · exact ⟨rfl, rfl⟩
    · simp [hpoint]
  have hmantissa : ((digitsIn 10 decimalValue ([digitChar v.whole] ++ v.digits.map digitChar) : ℕ) :
      ℚ) = v.value * 10 ^ v.digits.length := by
    rw [digitsIn, List.singleton_append, List.foldl_cons, foldl_digits, decimalValue_digitChar]
    simp [Qvalue.value]
  have hnumeral : numeral 10 isdigit decimalValue 10 'e' v.text = some v.value := by
    have hexponent : exponent 'e' [] = 0 := rfl
    rw [numeral_eq, hwhole.1, hwhole.2, fractionOf_text]
    simp only [hmantissa, hexponent, List.length_map, zpow_zero, mul_one]
    rw [if_neg (by simp)]
    simp
  rw [strtod_eq, hskip]
  simp only [hsign, hhex, hnumeral, Option.none_or, Option.map_some]
  rfl

/-- A quality is taken for what it is meant as. -/
lemma tenths_of_quality {p : Parameter} {v : Qvalue} (h : p.pair = .quality v) :
    p.tenths = some v.tenths := by
  have hname : p.pair.name.bytes.getLast? = some (ch 'q') := by
    rw [h]
    rfl
  have hvalue : strtod p.pair.value.bytes = some v.value := by
    rw [h]
    exact strtod_text v
  have hround : redhttpNegotiateRound (v.value * 10) = v.tenths := by
    rw [redhttpNegotiateRound, Qvalue.tenths, round_eq, mul_comm]
  rw [Parameter.tenths, if_pos hname, hvalue]
  simp only [v.value_mem, and_self, if_true, hround]

/-! ### The scan -/

/-- The scan of all of a text. -/
def scan (s : List UInt8) (q : ℕ) : ℕ := scanQuality s.length s q

lemma scan_cons (c : UInt8) (s : List UInt8) (q : ℕ) :
    scan (c :: s) q = if 3 ≤ s.length then scan s (qualityAt (c :: s) q) else q := by
  rw [scan, List.length_cons, scanQuality]
  split_ifs <;> first | rfl | omega

lemma scan_of_short {s : List UInt8} (h : s.length ≤ 3) (q : ℕ) : scan s q = q := by
  cases s with
  | nil => rfl
  | cons c s =>
    rw [List.length_cons] at h
    rw [scan_cons, if_neg (by omega)]

/-- The scan passes over a character that is not in front of `=`. -/
lemma scan_cons_of_ne {c : UInt8} {s : List UInt8} (h : c ≠ ch 'q' ∨ s.head? ≠ some (ch '='))
    (q : ℕ) : scan (c :: s) q = scan s q := by
  have hat : qualityAt (c :: s) q = q := by
    cases s with
    | nil => rfl
    | cons e s =>
      rw [qualityAt, if_neg]
      rintro ⟨rfl, rfl⟩
      simp at h
  rw [scan_cons, hat]
  split_ifs with hlength
  · rfl
  · exact (scan_of_short (by omega) q).symm

/-- It passes over a text without `=`. -/
lemma scan_append {a : List UInt8} (ha : ch '=' ∉ a) {s : List UInt8}
    (hs : s.head? ≠ some (ch '=')) (q : ℕ) : scan (a ++ s) q = scan s q := by
  induction a with
  | nil => rfl
  | cons c a ih =>
    rw [List.mem_cons, not_or] at ha
    rw [List.cons_append, scan_cons_of_ne _ q, ih ha.2]
    right
    cases a with
    | nil => exact hs
    | cons d a =>
      rw [List.mem_cons, not_or] at ha
      simpa using Ne.symm ha.2.1

/-! ### What a parameter is made of -/

lemma isTokenChar_iff {c : UInt8} : isTokenChar c = true ↔
    isspace c = false ∧ c ≠ 0 ∧ c ≠ ch ',' ∧ c ≠ ch ';' ∧ c ≠ ch '=' := by
  simp [isTokenChar, and_assoc]

lemma ne_of_isspace {c : UInt8} (h : isspace c = true) :
    c ≠ ch ',' ∧ c ≠ ch ';' ∧ c ≠ ch '=' := by
  revert h
  exact forall_uint8 (p := fun c => isspace c = true → c ≠ ch ',' ∧ c ≠ ch ';' ∧ c ≠ ch '=')
    (by decide +kernel) c

lemma not_number_of_isspace {c : UInt8} (h : isspace c = true) : isNumberChar c = false := by
  revert h
  exact forall_uint8 (p := fun c => isspace c = true → isNumberChar c = false)
    (by decide +kernel) c

lemma Token.no_equals (t : Token) : ch '=' ∉ t.bytes :=
  fun h => (isTokenChar_iff.mp (t.chars _ h)).2.2.2.2 rfl

lemma Spaces.no_equals (s : Spaces) : ch '=' ∉ s.bytes :=
  fun h => (ne_of_isspace (s.chars _ h)).2.2 rfl

/-- What stands behind a parameter: nothing, or the next one. -/
def BehindParameter (rest : List UInt8) : Prop := rest = [] ∨ ∃ t, rest = ch ';' :: t

lemma BehindParameter.head {rest : List UInt8} (h : BehindParameter rest) :
    rest.head? ≠ some (ch '=') := by
  rcases h with rfl | ⟨t, rfl⟩
  · simp
  · rw [List.head?_cons, ne_eq, Option.some.injEq]
    decide

/-- White space and then the next parameter end a number. -/
lemma endsNumber_behind (behind : Spaces) {rest : List UInt8} (h : BehindParameter rest) :
    EndsNumber (behind.bytes ++ rest) := by
  obtain ⟨bytes, hbytes⟩ := behind
  cases bytes with
  | cons c bytes =>
    intro d hd
    obtain rfl := Option.some.inj hd
    exact not_number_of_isspace (hbytes c (by simp))
  | nil =>
    rcases h with rfl | ⟨t, rfl⟩
    · simp [EndsNumber]
    · intro c hc
      obtain rfl := Option.some.inj hc
      decide

/-- A value is read up to what stands behind it. -/
lemma strtod_value (value : Token) (behind : Spaces) {rest : List UInt8}
    (h : BehindParameter rest) :
    strtod (value.bytes ++ (behind.bytes ++ rest)) = strtod value.bytes := by
  refine strtod_append (endsNumber_behind behind h) (Or.inl ?_)
  obtain ⟨c, t, hct⟩ := List.exists_cons_of_ne_nil value.nonempty
  have hc : isspace c = false := (isTokenChar_iff.mp (value.chars c (by simp [hct]))).1
  rw [hct, List.dropWhile_cons_of_neg (by simp [hc])]
  exact List.cons_ne_nil _ _

/-- The scan of a parameter, in front of what stands behind it. -/
lemma scan_parameter (p : Parameter) {rest : List UInt8} (hrest : BehindParameter rest) (q : ℕ) :
    scan (p.text ++ rest) q =
      scan rest (if rest = [] ∧ p.Short then q else p.tenths.getD q) := by
  obtain ⟨front, c, hname⟩ := (List.eq_nil_or_concat' p.pair.name.bytes).resolve_left
    p.pair.name.nonempty
  have hequals := p.pair.name.no_equals
  rw [hname, List.mem_append, not_or] at hequals
  -- up to the last character of the name
  have hfront : ch '=' ∉ ch ';' :: (p.before.bytes ++ front) := by
    have hne : ch '=' ≠ ch ';' := by decide
    simp [hne, p.before.no_equals, hequals.1]
  have htext : p.text ++ rest = (ch ';' :: (p.before.bytes ++ front)) ++
      c :: ch '=' :: (p.pair.value.bytes ++ (p.behind.bytes ++ rest)) := by
    simp [Parameter.text, hname]
  have hc : (c :: ch '=' :: (p.pair.value.bytes ++ (p.behind.bytes ++ rest))).head? ≠
      some (ch '=') := by
    rintro heq
    obtain rfl := Option.some.inj heq
    simp at hequals
  rw [htext, scan_append hfront hc]
  -- behind the `=`
  have hvalue : ∀ q, scan (ch '=' :: (p.pair.value.bytes ++ (p.behind.bytes ++ rest))) q =
      scan rest q := by
    intro q
    have hequals : ch '=' ∉ p.pair.value.bytes ++ p.behind.bytes := by
      simp [p.pair.value.no_equals, p.behind.no_equals]
    have hne : ch '=' ≠ ch 'q' := by decide
    rw [scan_cons_of_ne (Or.inl hne), ← List.append_assoc, scan_append hequals hrest.head]
  have hlast : p.pair.name.bytes.getLast? = some c := by rw [hname, List.getLast?_concat]
  by_cases hq : c = ch 'q'
  · subst hq
    have hat : qualityAt (ch 'q' :: ch '=' :: (p.pair.value.bytes ++ (p.behind.bytes ++ rest))) q =
        p.tenths.getD q := by
      rw [qualityAt, if_pos ⟨rfl, rfl⟩, strtod_value _ _ hrest, Parameter.tenths, if_pos hlast]
      cases strtod p.pair.value.bytes with
      | none => rfl
      | some d => dsimp only; split_ifs <;> rfl
    have hpos : 0 < p.pair.value.bytes.length := List.length_pos_iff.mpr p.pair.value.nonempty
    rw [scan_cons, hat, hvalue, List.length_cons, List.length_append, List.length_append]
    split_ifs with hlength hshort hshort
    · -- a short value at the end of the item does not leave room for the scan
      obtain ⟨rfl, hone, hnil⟩ := hshort
      rw [hone, hnil] at hlength
      simp at hlength
    · rfl
    · rw [hshort.1]
      rfl
    · have hrest' : rest = [] := List.length_eq_zero_iff.mp (by omega)
      have hbehind : p.behind.bytes = [] := List.length_eq_zero_iff.mp (by omega)
      exact absurd ⟨hrest', by omega, hbehind⟩ hshort
  · rw [scan_cons_of_ne (Or.inl hq), hvalue]
    have hnone : p.tenths = none := by
      rw [Parameter.tenths, hlast, if_neg (by simpa using hq)]
    simp [hnone]

lemma behindParameter_flatMap (params : List Parameter) :
    BehindParameter (params.flatMap Parameter.text) := by
  cases params with
  | nil => exact Or.inl rfl
  | cons p params => exact Or.inr ⟨_, by rw [List.flatMap_cons, Parameter.text, List.cons_append]⟩

/-- The scan of some parameters ends with the last quality that is heard. -/
lemma scan_params (params : List Parameter) (q : ℕ) :
    scan (params.flatMap Parameter.text) q = (heardTenths params).getLast?.getD q := by
  induction params generalizing q with
  | nil => rfl
  | cons p params ih =>
    have hnil : params.flatMap Parameter.text = [] ↔ params.isEmpty := by
      cases params with
      | nil => simp
      | cons p params => simp [Parameter.text]
    rw [List.flatMap_cons, scan_parameter p (behindParameter_flatMap params), ih, heardTenths]
    simp only [hnil]
    split_ifs with hshort
    · rw [List.isEmpty_iff.mp hshort.1]
      rfl
    · rw [List.getLast?_append]
      cases (heardTenths params).getLast? <;> cases p.tenths <;> rfl

/-! ### The items of a header -/

lemma Spaces.separate (s : Spaces) : ∀ c ∈ s.bytes, c ≠ 0 ∧ c ≠ ch ',' ∧ c ≠ ch ';' := by
  intro c hc
  obtain ⟨hcomma, hsemi, -⟩ := ne_of_isspace (s.chars c hc)
  exact ⟨ne_zero_of_isspace (s.chars c hc), hcomma, hsemi⟩

lemma Token.separate (t : Token) : ∀ c ∈ t.bytes, c ≠ 0 ∧ c ≠ ch ',' ∧ c ≠ ch ';' := by
  intro c hc
  obtain ⟨-, hzero, hcomma, hsemi, -⟩ := isTokenChar_iff.mp (t.chars c hc)
  exact ⟨hzero, hcomma, hsemi⟩

lemma Parameter.separate (p : Parameter) : ∀ c ∈ p.text, c ≠ 0 ∧ c ≠ ch ',' := by
  have hsemi : ch ';' ≠ 0 ∧ ch ';' ≠ ch ',' := by decide
  have hequals : ch '=' ≠ 0 ∧ ch '=' ≠ ch ',' := by decide
  intro c hc
  simp only [text, List.mem_cons, List.mem_append] at hc
  rcases hc with rfl | (h | h) | rfl | h | h
  · exact hsemi
  · exact ⟨(p.before.separate c h).1, (p.before.separate c h).2.1⟩
  · exact ⟨(p.pair.name.separate c h).1, (p.pair.name.separate c h).2.1⟩
  · exact hequals
  · exact ⟨(p.pair.value.separate c h).1, (p.pair.value.separate c h).2.1⟩
  · exact ⟨(p.behind.separate c h).1, (p.behind.separate c h).2.1⟩

namespace AcceptItem

variable (item : AcceptItem)

/-- The type of an item with the white space around it. -/
def typeText : List UInt8 := item.before.bytes ++ item.type.bytes ++ item.behind.bytes

lemma typeText_separate : ∀ c ∈ item.typeText, c ≠ 0 ∧ c ≠ ch ',' ∧ c ≠ ch ';' := by
  intro c hc
  simp only [typeText, List.mem_append] at hc
  rcases hc with (h | h) | h
  · exact item.before.separate c h
  · exact item.type.separate c h
  · exact item.behind.separate c h

lemma text_separate : ∀ c ∈ item.text, c ≠ 0 ∧ c ≠ ch ',' := by
  intro c hc
  rcases List.mem_append.mp hc with h | h
  · obtain ⟨hzero, hcomma, -⟩ := item.typeText_separate c h
    exact ⟨hzero, hcomma⟩
  · obtain ⟨p, -, hp⟩ := List.mem_flatMap.mp h
    exact p.separate c hp

lemma itemType_text : itemType item.text = item.typeText := by
  have hnot : ch ';' ∉ item.typeText := fun hc => (item.typeText_separate _ hc).2.2 rfl
  have hparams : (item.params.flatMap Parameter.text).takeWhile (· != ch ';') = [] := by
    rcases behindParameter_flatMap item.params with h | ⟨t, h⟩ <;> rw [h]
    · rfl
    · simp
  rw [itemType, text, ← typeText, takeWhile_bne_append hnot, hparams, List.append_nil]

/-- The white space around the type is trimmed. -/
lemma trim_typeText : (item.typeText.dropWhile isspace).rdropWhile isspace = item.type.bytes := by
  have htype : ∀ c ∈ item.type.bytes, isspace c = false :=
    fun c hc => (isTokenChar_iff.mp (item.type.chars c hc)).1
  obtain ⟨c, t, hct⟩ := List.exists_cons_of_ne_nil item.type.nonempty
  obtain ⟨front, d, hfd⟩ := (List.eq_nil_or_concat' item.type.bytes).resolve_left
    item.type.nonempty
  have hc : isspace c = false := htype c (by simp [hct])
  have hd : isspace d = false := htype d (by simp [hfd])
  have hfront : item.typeText.dropWhile isspace = item.type.bytes ++ item.behind.bytes := by
    rw [typeText, List.append_assoc, List.dropWhile_append_of_pos item.before.chars, hct,
      List.cons_append, List.dropWhile_cons_of_neg (by simp [hc])]
  have hback : ∀ s : List UInt8, (∀ c ∈ s, isspace c = true) →
      (front ++ [d] ++ s).rdropWhile isspace = front ++ [d] := by
    intro s hs
    induction s using List.reverseRecOn with
    | nil => rw [List.append_nil, List.rdropWhile_concat_neg isspace front d (by simp [hd])]
    | append_singleton s e ih =>
      rw [← List.append_assoc, List.rdropWhile_concat_pos isspace _ e (hs e (by simp))]
      exact ih fun c hc => hs c (by simp [hc])
  rw [hfront, hfd, hback _ item.behind.chars]

/-- The entry that an item adds is what is heard of it. -/
lemma entry_itemCall : (itemCall item.text).entry = item.heard := by
  have hself : item.text.takeWhile (· != ch ',') = item.text :=
    takeWhile_bne_eq_self_iff.mpr fun hc => (item.text_separate _ hc).2 rfl
  have htype : item.text.takeWhile (· != ch ';') = item.typeText := item.itemType_text
  have htext : item.text = item.typeText ++ item.params.flatMap Parameter.text := rfl
  have hlength : item.text.length - item.typeText.length =
      (item.params.flatMap Parameter.text).length := by
    rw [htext, List.length_append, Nat.add_sub_cancel_left]
  have hdrop : item.text.drop item.typeText.length = item.params.flatMap Parameter.text := by
    rw [htext, List.drop_left]
  have hscan := scan_params item.params 10
  rw [scan] at hscan
  simp only [AddCall.entry, itemCall, itemType, parseItem, hself, htype, hlength, hdrop, hscan,
    item.trim_typeText, heard]

lemma itemNamed_text : ItemNamed item.text := by
  obtain ⟨c, t, hct⟩ := List.exists_cons_of_ne_nil item.type.nonempty
  have hc : isspace c = false := (isTokenChar_iff.mp (item.type.chars c (by simp [hct]))).1
  rw [ItemNamed, itemType_text]
  exact ⟨c, by simp [typeText, hct], hc⟩

end AcceptItem

lemma bytes_acceptHeader (items : List AcceptItem) :
    (acceptHeader items).bytes = [ch ','].intercalate (items.map AcceptItem.text) := by
  refine CString.bytes_ofBytes_of_not_mem fun hmem => ?_
  rcases mem_join hmem with hcomma | ⟨text, htext, hzero⟩
  · exact absurd hcomma (by decide)
  · obtain ⟨item, -, rfl⟩ := List.mem_map.mp htext
    exact (item.text_separate 0 hzero).1 rfl

/-- A header is parsed into the entries that are heard of its items. -/
lemma redhttpNegotiateParse_heard (first : AcceptItem) (rest : List AcceptItem) :
    ∃ list, redhttpNegotiateParse (some (acceptHeader (first :: rest))) = .ok list ∧
      list.Perm ((first :: rest).map AcceptItem.heard) := by
  have hitems : negotiateItems (acceptHeader (first :: rest)).bytes =
      (first :: rest).map AcceptItem.text := by
    rw [bytes_acceptHeader]
    refine negotiateItems_join ?_ (List.cons_ne_nil _ _)
    rw [List.forall_mem_map]
    exact fun item _ hmem => (item.text_separate _ hmem).2 rfl
  have hne : (acceptHeader (first :: rest)).bytes ≠ [] := by
    intro hnil
    rw [hnil] at hitems
    have hfirst : first.text = [] := by
      simpa [negotiateItems] using (congrArg List.head? hitems).symm
    simp [AcceptItem.text, first.type.nonempty] at hfirst
  have hnamed : ∀ item ∈ negotiateItems (acceptHeader (first :: rest)).bytes, ItemNamed item := by
    rw [hitems, List.forall_mem_map]
    exact fun item _ => item.itemNamed_text
  obtain ⟨list, hlist, hstable⟩ := redhttpNegotiateParse_stable hne hnamed
  refine ⟨list, hlist, ?_⟩
  have hentries : ((negotiateItems (acceptHeader (first :: rest)).bytes).map
      fun item => (itemCall item).entry) = (first :: rest).map AcceptItem.heard := by
    rw [hitems, List.map_map]
    exact List.map_congr_left fun item _ => item.entry_itemCall
  exact hentries ▸ hstable.perm

/-- An item is heard as it is meant if no other name ends in `q` and its quality is not a short
one at its end. -/
theorem AcceptItem.heard_eq_asked (item : AcceptItem)
    (hother : ∀ p ∈ item.params, p.pair.qvalue = none →
      p.pair.name.bytes.getLast? ≠ some (ch 'q'))
    (hshort : ∀ p ∈ item.params.getLast?, p.pair.qvalue = none ∨ ¬ p.Short) :
    item.heard = item.asked := by
  have htenths : ∀ params : List Parameter,
      (∀ p ∈ params, p.pair.qvalue = none → p.pair.name.bytes.getLast? ≠ some (ch 'q')) →
      (∀ p ∈ params.getLast?, p.pair.qvalue = none ∨ ¬ p.Short) →
      heardTenths params = (params.filterMap fun p => p.pair.qvalue).map Qvalue.tenths := by
    intro params
    induction params with
    | nil => exact fun _ _ => rfl
    | cons p params ih =>
      intro hother hshort
      rw [List.forall_mem_cons] at hother
      have hheard : p.tenths = p.pair.qvalue.map Qvalue.tenths := by
        cases hpair : p.pair with
        | quality v => exact tenths_of_quality hpair
        | other name value ne =>
          rw [Parameter.tenths, if_neg (hother.1 (by rw [hpair]; rfl))]
          rfl
      rw [heardTenths, List.filterMap_cons]
      split_ifs with hcut
      · obtain rfl := List.isEmpty_iff.mp hcut.1
        have hnone : p.pair.qvalue = none :=
          (hshort p (by simp)).resolve_right fun hnot => hnot hcut.2
        simp [hnone]
      · have hrest := ih hother.2 fun p' hp' => hshort p' (by
          rw [Option.mem_def] at hp' ⊢
          cases params with
          | nil => cases hp'
          | cons a params => rwa [List.getLast?_cons_cons])
        rw [hrest, hheard]
        cases p.pair.qvalue <;> rfl
  have hhead : ∀ l : List ℕ, l.length ≤ 1 → l.getLast? = l.head? := by
    intro l hl
    match l with
    | [] => rfl
    | [_] => rfl
    | _ :: _ :: _ => simp at hl
  rw [heard, asked, askedTenths, htenths _ hother hshort,
    hhead _ (by simpa using item.one_quality), List.head?_map]

/-- A header yields the entries that its items ask for exactly when these are the ones that are
heard of them. -/
theorem redhttpNegotiateParse_asked_iff (first : AcceptItem) (rest : List AcceptItem) :
    (∃ list, redhttpNegotiateParse (some (acceptHeader (first :: rest))) = .ok list ∧
      list.Perm ((first :: rest).map AcceptItem.asked)) ↔
      ((first :: rest).map AcceptItem.heard).Perm ((first :: rest).map AcceptItem.asked) := by
  obtain ⟨list, hlist, hperm⟩ := redhttpNegotiateParse_heard first rest
  constructor
  · rintro ⟨list', hlist', hperm'⟩
    obtain rfl : list = list' := Except.ok.inj (hlist.symm.trans hlist')
    exact hperm.symm.trans hperm'
  · exact fun h => ⟨list, hlist, hperm.trans h⟩

/-! ### Two items that are misheard -/

/-- A type with one parameter, without white space. -/
def htmlItem (pair : Pair) : AcceptItem where
  before := ⟨[], by simp⟩
  type := ⟨bytesOf "text/html", by decide, forall_mem_of_all (by decide)⟩
  behind := ⟨[], by simp⟩
  params := [⟨⟨[], by simp⟩, pair, ⟨[], by simp⟩⟩]
  one_quality := List.length_filterMap_le _ _

/-- `text/html;q=0`. -/
def refusedItem : AcceptItem := htmlItem (.quality (.zero [] (by decide)))

/-- `text/html;xq=0.3`. -/
def otherItem : AcceptItem :=
  htmlItem (.other ⟨bytesOf "xq", by decide, forall_mem_of_all (by decide)⟩
    ⟨bytesOf "0.3", by decide, forall_mem_of_all (by decide)⟩ (by decide))

lemma not_asked_of_misheard {item : AcceptItem} (h : item.heard ≠ item.asked) :
    ¬ ∃ list, redhttpNegotiateParse (some (acceptHeader [item])) = .ok list ∧
      list.Perm ([item].map AcceptItem.asked) := by
  rintro ⟨list, hlist, hasked⟩
  obtain ⟨list', hlist', hheard⟩ := redhttpNegotiateParse_heard item []
  obtain rfl : list' = list := Except.ok.inj (hlist'.symm.trans hlist)
  have hperm : ([item].map AcceptItem.heard).Perm ([item].map AcceptItem.asked) :=
    hheard.symm.trans hasked
  rw [List.map_singleton, List.map_singleton, List.singleton_perm_singleton] at hperm
  exact h hperm

/-- A quality of one character at the end of its item is missed, and a parameter whose name
merely ends in `q` is taken for a quality. -/
theorem accept_qualities_misheard :
    (acceptHeader [refusedItem] = CString.lit "text/html;q=0" ∧
      ¬ ∃ list, redhttpNegotiateParse (some (acceptHeader [refusedItem])) = .ok list ∧
        list.Perm ([refusedItem].map AcceptItem.asked)) ∧
      acceptHeader [otherItem] = CString.lit "text/html;xq=0.3" ∧
        ¬ ∃ list, redhttpNegotiateParse (some (acceptHeader [otherItem])) = .ok list ∧
          list.Perm ([otherItem].map AcceptItem.asked) := by
  have hrefused : refusedItem.heard ≠ refusedItem.asked := by decide +kernel
  have hother : otherItem.heard ≠ otherItem.asked := by decide +kernel
  exact ⟨⟨by decide, not_asked_of_misheard hrefused⟩, by decide, not_asked_of_misheard hother⟩

end RedStore.RedHttp
