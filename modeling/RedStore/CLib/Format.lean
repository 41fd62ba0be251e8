/-
Format strings: what `printf` and its relatives make of them.

A format is text with conversions in it, and every conversion takes the next argument.  A
conversion that finds no argument, or one of another kind than it takes, is undefined; what is
left of the arguments at the end is ignored.  Of the conversions, `%s` and `%d` are here, and
`%%`, which takes nothing; no argument is of the kind of any other.
-/
import RedStore.CLib.Machine
import RedStore.CLib.Text

namespace CLib

/-! ### Formats and arguments -/

/-- What a conversion takes. -/
inductive ArgKind where
  | string | int
deriving DecidableEq

/-- A directive of a format: a character to print, or a conversion, by what it takes if it is
one of those here. -/
inductive Directive where
  | text (c : UInt8)
  | conversion (kind : Option ArgKind)
deriving DecidableEq

/-- The conversion of a character. -/
def conversionOf (c : UInt8) : Directive :=
  if c = ch '%' then .text (ch '%')
  else if c = ch 's' then .conversion (some .string)
  else if c = ch 'd' then .conversion (some .int)
  else .conversion none

/-- The directives of a format.  A percent sign at the end begins a conversion that is none. -/
def directives : List UInt8 → List Directive
  | [] => []
  | [c] => if c = ch '%' then [.conversion none] else [.text c]
  | c :: d :: s =>
    if c = ch '%' then conversionOf d :: directives s else .text c :: directives (d :: s)

/-- An argument that is handed over. -/
inductive Arg where
  | string (s : Option CString)
  | int (n : ℤ)
deriving DecidableEq

/-- What an argument is. -/
def Arg.kind : Arg → ArgKind
  | .string _ => .string
  | .int _ => .int

/-- How an argument is printed; NULL is printed as `(null)`. -/
def Arg.text : Arg → List UInt8
  | .string s => s.elim (bytesOf "(null)") CString.bytes
  | .int n => decimalInt n

/-- The string that an argument is. -/
def Arg.asString : Arg → Option CString
  | .string s => s
  | .int _ => none

/-- The text that directives and arguments make, where that is defined. -/
def expand : List Directive → List Arg → Option (List UInt8)
  | [], _ => some []
  | .text c :: ds, args => (expand ds args).map (c :: ·)
  | .conversion kind :: ds, arg :: args =>
    if kind = some arg.kind then (expand ds args).map (arg.text ++ ·) else none
  | .conversion _ :: _, [] => none

/-- `vprintf`: the text that is printed, if an `int` can count it. -/
def vprintf (format : List UInt8) (args : List Arg) : Option (List UInt8) :=
  (expand (directives format) args).filter fun text => text.length < intRange

/-- A directive that is printed as it is. -/
def Directive.isText : Directive → Bool
  | .text _ => true
  | .conversion _ => false

/-- How long a text is, by what it is made of. -/
def textLength (ds : List Directive) (args : List Arg) : ℕ :=
  ds.countP Directive.isText + (args.map fun arg => arg.text.length).sum

/-- The conversions among some directives. -/
def conversions (ds : List Directive) : List (Option ArgKind) :=
  ds.filterMap fun directive => match directive with
    | .text _ => none
    | .conversion kind => some kind

/-- The conversions of a format are matched one for one by the arguments. -/
def Matched (format : List UInt8) (args : List Arg) : Prop :=
  conversions (directives format) = args.map fun arg => some arg.kind

instance (format : List UInt8) (args : List Arg) : Decidable (Matched format args) :=
  inferInstanceAs (Decidable (_ = _))

/-! ### Matched formats -/

/-- Where the conversions are matched there is a text, and every argument is in it. -/
lemma expand_of_matched {ds : List Directive} {args : List Arg}
    (h : conversions ds = args.map fun arg => some arg.kind) :
    ∃ text, expand ds args = some text ∧ text.length = textLength ds args ∧
      ∀ arg ∈ args, arg.text <:+: text := by
  induction ds generalizing args with
  | nil =>
    obtain rfl : args = [] := List.map_eq_nil_iff.mp h.symm
    exact ⟨[], rfl, rfl, by simp⟩
  | cons directive ds ih =>
    cases directive with
    | text c =>
      obtain ⟨text, htext, hlength, hall⟩ := ih h
      refine ⟨c :: text, by rw [expand, htext]; rfl, ?_, fun arg harg => ?_⟩
      · rw [List.length_cons, hlength, textLength, textLength, List.countP_cons_of_pos rfl]
        omega
      · exact (hall arg harg).trans (List.suffix_cons c text).isInfix
    | conversion kind =>
      cases args with
      | nil => cases h
      | cons arg args =>
        obtain ⟨hkind, hrest⟩ := List.cons.inj h
        obtain ⟨text, htext, hlength, hall⟩ := ih hrest
        refine ⟨arg.text ++ text, by rw [expand, if_pos hkind, htext]; rfl, ?_, ?_⟩
        · rw [List.length_append, hlength, textLength, textLength, List.map_cons, List.sum_cons,
            List.countP_cons_of_neg Bool.false_ne_true]
          omega
        · simp only [List.forall_mem_cons]
          exact ⟨(List.prefix_append _ _).isInfix,
            fun other hother => (hall other hother).trans (List.suffix_append _ _).isInfix⟩

section Printed

variable {format : List UInt8} {args : List Arg}

/-- A matched format is printed if the text can be counted. -/
theorem exists_vprintf (h : Matched format args)
    (hfits : textLength (directives format) args < intRange) :
    ∃ text, vprintf format args = some text := by
  obtain ⟨text, htext, hlength, -⟩ := expand_of_matched h
  refine ⟨text, ?_⟩
  rw [vprintf, htext, Option.filter_some, if_pos (by simpa [hlength] using hfits)]

lemma expand_of_vprintf {text : List UInt8} (h : vprintf format args = some text) :
    expand (directives format) args = some text ∧ text.length < intRange := by
  rw [vprintf, Option.filter_eq_some_iff] at h
  simpa using h

/-- What is printed of a matched format could be counted, and has every argument in it. -/
theorem vprintf_of_matched {text : List UInt8} (h : Matched format args)
    (htext : vprintf format args = some text) :
    textLength (directives format) args < intRange ∧ ∀ arg ∈ args, arg.text <:+: text := by
  obtain ⟨hexpand, hlt⟩ := expand_of_vprintf htext
  obtain ⟨text', htext', hlength, hall⟩ := expand_of_matched h
  obtain rfl : text = text' := Option.some.inj (hexpand.symm.trans htext')
  exact ⟨hlength ▸ hlt, hall⟩

end Printed

/-! ### Texts in the place of a format -/

/-- Percent signs stand in pairs only. -/
inductive PercentsPaired : List UInt8 → Prop where
  | nil : PercentsPaired []
  | text {c : UInt8} {s : List UInt8} (hc : c ≠ ch '%') (h : PercentsPaired s) :
    PercentsPaired (c :: s)
  | pair {s : List UInt8} (h : PercentsPaired s) : PercentsPaired (ch '%' :: ch '%' :: s)

lemma directives_cons_of_ne {c : UInt8} (hc : c ≠ ch '%') (s : List UInt8) :
    directives (c :: s) = .text c :: directives s := by
  cases s with
  | nil => exact if_neg hc
  | cons d s => exact if_neg hc

lemma directives_percent (d : UInt8) (s : List UInt8) :
    directives (ch '%' :: d :: s) = conversionOf d :: directives s := by
  rw [directives, if_pos rfl]

/-- A text without percent signs is taken as it is. -/
lemma directives_append {s : List UInt8} (h : ch '%' ∉ s) (t : List UInt8) :
    directives (s ++ t) = s.map .text ++ directives t := by
  induction s with
  | nil => rfl
  | cons c s ih =>
    rw [List.mem_cons, not_or] at h
    rw [List.cons_append, directives_cons_of_ne (Ne.symm h.1), ih h.2, List.map_cons,
      List.cons_append]

lemma expand_map_text_append (s : List UInt8) (ds : List Directive) (args : List Arg) :
    expand (s.map .text ++ ds) args = (expand ds args).map (s ++ ·) := by
  induction s with
  | nil => exact Option.map_id'.symm
  | cons c s ih =>
    rw [List.map_cons, List.cons_append, expand, ih, Option.map_map]
    rfl

/-- What is in front of the first conversion is printed as it is. -/
lemma expand_append {s : List UInt8} (h : ch '%' ∉ s) (t : List UInt8) (args : List Arg) :
    expand (directives (s ++ t)) args = (expand (directives t) args).map (s ++ ·) := by
  rw [directives_append h, expand_map_text_append]

lemma expand_of_not_mem {s : List UInt8} (h : ch '%' ∉ s) (args : List Arg) :
    expand (directives s) args = some s := by
  have happend := expand_append h [] args
  rw [List.append_nil] at happend
  rw [happend, directives, expand, Option.map_some, List.append_nil]

/-- Only `%%` takes nothing. -/
lemma conversions_conversionOf {d : UInt8} {s : List UInt8}
    (h : conversions (conversionOf d :: directives s) = []) :
    d = ch '%' ∧ conversions (directives s) = [] := by
  rw [conversionOf] at h
  split at h
  · next hd => exact ⟨hd, h⟩
  · split at h
    · cases h
    · split at h <;> cases h

/-- A text takes no arguments exactly if its percent signs stand in pairs. -/
lemma matched_nil_iff {s : List UInt8} : Matched s [] ↔ PercentsPaired s := by
  rw [Matched, List.map_nil]
  constructor
  · intro h
    fun_induction directives s with
    | case1 => exact .nil
    | case2 => cases h
    | case3 c hc => exact .text hc .nil
    | case4 d s ih =>
      obtain ⟨rfl, hs⟩ := conversions_conversionOf h
      exact .pair (ih hs)
    | case5 c d s hc ih => exact .text hc (ih h)
  · intro h
    induction h with
    | nil => rfl
    | text hc h ih =>
      rw [directives_cons_of_ne hc]
      exact ih
    | pair h ih =>
      rw [directives_percent, conversionOf, if_pos rfl]
      exact ih

/-- What is printed of such a text has one percent sign for every two. -/
lemma PercentsPaired.count_expand {s : List UInt8} (h : PercentsPaired s) :
    ∃ text, expand (directives s) [] = some text ∧ 2 * text.count (ch '%') = s.count (ch '%') := by
  induction h with
  | nil => exact ⟨[], rfl, rfl⟩
  | @text c s hc h ih =>
    obtain ⟨text, htext, hcount⟩ := ih
    refine ⟨c :: text, by rw [directives_cons_of_ne hc, expand, htext]; rfl, ?_⟩
    rw [List.count_cons_of_ne hc, List.count_cons_of_ne hc, hcount]
  | @pair s h ih =>
    obtain ⟨text, htext, hcount⟩ := ih
    refine ⟨ch '%' :: text, ?_, ?_⟩
    · rw [directives_percent, conversionOf, if_pos rfl, expand, htext]
      rfl
    · rw [List.count_cons_self, List.count_cons_self, List.count_cons_self]
      omega

/-- Where a text that is printed as a format appears as it is, it has no percent sign. -/
theorem not_mem_of_verbatim {s text front back : List UInt8} (hpaired : PercentsPaired s)
    (htext : expand (directives s) [] = some text) (hfront : ch '%' ∉ front)
    (hback : ch '%' ∉ back) (hverbatim : s <:+: front ++ text ++ back) : ch '%' ∉ s := by
  obtain ⟨printed, hprinted, hcount⟩ := hpaired.count_expand
  obtain rfl : text = printed := Option.some.inj (htext.symm.trans hprinted)
  have hle := hverbatim.sublist.count_le (ch '%')
  rw [List.count_append, List.count_append, List.count_eq_zero_of_not_mem hfront,
    List.count_eq_zero_of_not_mem hback] at hle
  rw [← List.count_eq_zero]
  omega

end CLib
