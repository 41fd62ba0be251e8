/-
Percent-encoding and back.

`redhttp_url_escape` goes over the string twice, to size the new buffer and to fill it, and
reads its table of digits at the two halves of an unsafe character.  The character is a
signed `char`: from `0x80` on it is negative, and so is its upper half.  On every other string
the buffer is filled to the size counted, with unreserved characters and escapes only, and
`redhttp_url_unescape` gives the string back.
-/
import RedStore.RedHttp.Url

namespace RedStore.RedHttp
open CLib

/-! ### The two passes -/

/-- The first pass: `enc_len`. -/
def encodedLength (s : List UInt8) : ℕ :=
  s.foldl (fun encLen c => if isurlsafe c then encLen else encLen + 2) s.length

/-- The value of a plain `char` as an `int`. -/
def signedChar (c : UInt8) : ℤ := if c < 128 then c.toNat else c.toNat - 256

/-- `hex` of `redhttp_url_escape`. -/
def hexTable : List UInt8 := bytesOf "0123456789ABCDEF"

/-- `hex[i]`. -/
def hexAt (i : ℤ) : Except Fault UInt8 :=
  if 0 ≤ i then
    match hexTable[i.toNat]? with
    | some digit => .ok digit
    | none => .error .outOfBounds
  else .error .outOfBounds

/-- A round of the second pass. -/
def escapeChar (c : UInt8) : Except Fault (List UInt8) :=
  if isurlsafe c then .ok [c]
  else do
    -- `hex[c >> 4]` and `hex[c & 0xf]`
    let high ← hexAt (signedChar c >>> (4 : ℕ))
    let low ← hexAt (signedChar c % 16)
    .ok [ch '%', high, low]

/-- The table is read outside exactly where `escapeByte` says so. -/
lemma escapeChar_eq (c : UInt8) : escapeChar c = escapeByte c :=
  forall_uint8 (p := fun c => escapeChar c = escapeByte c) (by decide +kernel) c

/-- The range checks through `unsigned char` are those of the character classes. -/
lemma isurlsafe_eq (c : UInt8) : isurlsafe c =
    (decide (c - ch 'a' < 26) || decide (c - ch 'A' < 26) || decide (c - ch '0' < 10) ||
      decide (c ∈ bytesOf "-._~")) :=
  forall_uint8 (p := fun c => isurlsafe c =
    (decide (c - ch 'a' < 26) || decide (c - ch 'A' < 26) || decide (c - ch '0' < 10) ||
      decide (c ∈ bytesOf "-._~"))) (by decide +kernel) c

/-! ### The text that comes out -/

/-- An upper-case hexadecimal digit. -/
def isUpperHex (c : UInt8) : Bool := isdigit c || (65 ≤ c && c ≤ 70)

/-- Unreserved characters and escapes. -/
inductive EscapedText : List UInt8 → Prop where
  | nil : EscapedText []
  | unreserved {c : UInt8} {t : List UInt8} (hc : isurlsafe c = true) (ht : EscapedText t) :
    EscapedText (c :: t)
  | escape {high low : UInt8} {t : List UInt8} (hhigh : isUpperHex high = true)
      (hlow : isUpperHex low = true) (ht : EscapedText t) :
    EscapedText (ch '%' :: high :: low :: t)

lemma isurlsafe_of_isUpperHex {c : UInt8} (h : isUpperHex c = true) : isurlsafe c = true := by
  revert h
  exact forall_uint8 (p := fun c => isUpperHex c = true → isurlsafe c = true) (by decide +kernel) c

/-- Nothing else is in it. -/
lemma EscapedText.forall_mem {t : List UInt8} (h : EscapedText t) :
    ∀ c ∈ t, isurlsafe c = true ∨ c = ch '%' := by
  induction h with
  | nil => simp
  | unreserved hc _ ih => exact List.forall_mem_cons.mpr ⟨Or.inl hc, ih⟩
  | escape hhigh hlow _ ih =>
    rw [List.forall_mem_cons, List.forall_mem_cons, List.forall_mem_cons]
    exact ⟨Or.inr rfl, Or.inl (isurlsafe_of_isUpperHex hhigh),
      Or.inl (isurlsafe_of_isUpperHex hlow), ih⟩

lemma EscapedText.not_mem {t : List UInt8} (h : EscapedText t) {c : UInt8}
    (hc : isurlsafe c = false) (hpercent : c ≠ ch '%') : c ∉ t := by
  intro hmem
  rcases h.forall_mem c hmem with hsafe | heq
  · rw [hc] at hsafe
    cases hsafe
  · exact hpercent heq

/-- What an escaped string has to be: as long as counted, free of other characters, and the
string again when it is unescaped. -/
structure EscapedFrom (s t : List UInt8) : Prop where
  length : t.length = encodedLength s
  text : EscapedText t
  unescape : redhttpUrlUnescape t = s

/-- The two digits of a byte below `0x80` are upper-case digits and give the byte back. -/
lemma hexDigits_spec {c : UInt8} (h : c < 128) :
    isUpperHex (hexDigit (c / 16)) = true ∧ isUpperHex (hexDigit (c % 16)) = true ∧
      hexPair [hexDigit (c / 16), hexDigit (c % 16)] = some c := by
  revert h
  exact forall_uint8 (p := fun c => c < 128 → isUpperHex (hexDigit (c / 16)) = true ∧
    isUpperHex (hexDigit (c % 16)) = true ∧
      hexPair [hexDigit (c / 16), hexDigit (c % 16)] = some c) (by decide +kernel) c

lemma ne_of_isurlsafe {c : UInt8} (h : isurlsafe c = true) : c ≠ ch '%' ∧ c ≠ ch '+' := by
  constructor <;> rintro rfl <;> exact absurd h (by decide)

lemma encodedLength_cons (c : UInt8) (s : List UInt8) :
    encodedLength (c :: s) = (if isurlsafe c then 1 else 3) + encodedLength s := by
  have hshift : ∀ (s : List UInt8) (n m : ℕ),
      s.foldl (fun encLen c => if isurlsafe c then encLen else encLen + 2) (n + m) =
        n + s.foldl (fun encLen c => if isurlsafe c then encLen else encLen + 2) m := by
    intro s
    induction s with
    | nil => exact fun _ _ => rfl
    | cons c s ih =>
      intro n m
      rw [List.foldl_cons, List.foldl_cons]
      split
      · exact ih n m
      · exact ih n (m + 2)
  have hfold := hshift s (if isurlsafe c then 1 else 3) s.length
  have hstart : (if isurlsafe c then (c :: s).length else (c :: s).length + 2) =
      (if isurlsafe c then 1 else 3) + s.length := by
    rw [List.length_cons]
    split <;> omega
  rw [encodedLength, List.foldl_cons, hstart, hfold]
  rfl

/-- One character and what is written for it. -/
lemma escapedFrom_cons {c : UInt8} {s t : List UInt8} (hc : c < 128) (h : EscapedFrom s t) :
    ∃ escaped, escapeByte c = .ok escaped ∧ EscapedFrom (c :: s) (escaped ++ t) := by
  by_cases hsafe : isurlsafe c = true
  · obtain ⟨hpercent, hplus⟩ := ne_of_isurlsafe hsafe
    refine ⟨[c], by rw [escapeByte, if_pos hsafe], ?_, .unreserved hsafe h.text, ?_⟩
    · rw [encodedLength_cons, if_pos hsafe, ← h.length, List.length_append]
      rfl
    · show unescapeFrom 0 (c :: t) = c :: s
      rw [unescapeFrom, if_neg hpercent, if_neg hplus]
      exact congrArg (c :: ·) h.unescape
  · obtain ⟨hhigh, hlow, hpair⟩ := hexDigits_spec hc
    refine ⟨_, by rw [escapeByte, if_neg hsafe, if_neg (UInt8.not_le.mpr hc)], ?_,
      .escape hhigh hlow h.text, ?_⟩
    · rw [encodedLength_cons, if_neg hsafe, ← h.length, List.length_append]
      rfl
    · show unescapeFrom 0 (ch '%' :: hexDigit (c / 16) :: hexDigit (c % 16) :: t) = c :: s
      have hfirst : hexPair (hexDigit (c / 16) :: hexDigit (c % 16) :: t) = some c := hpair
      rw [unescapeFrom, if_pos rfl, hfirst]
      exact congrArg (c :: ·) h.unescape

lemma exists_escapedFrom {s : List UInt8} (h : ∀ c ∈ s, c < 128) :
    ∃ t, redhttpUrlEscape s = .ok t ∧ EscapedFrom s t := by
  induction s with
  | nil => exact ⟨[], rfl, rfl, .nil, rfl⟩
  | cons c s ih =>
    rw [List.forall_mem_cons] at h
    obtain ⟨t, ht, hfrom⟩ := ih h.2
    obtain ⟨escaped, hescaped, hcons⟩ := escapedFrom_cons h.1 hfrom
    refine ⟨escaped ++ t, ?_, hcons⟩
    rw [redhttpUrlEscape, hescaped, ht]
    rfl

lemma escapedFrom_of_ok {s t : List UInt8} (h : redhttpUrlEscape s = .ok t) :
    EscapedFrom s t := by
  obtain ⟨t', ht', hfrom⟩ := exists_escapedFrom ((redhttpUrlEscape_ok_iff s).mp ⟨t, h⟩)
  obtain rfl : t' = t := Except.ok.inj (ht'.symm.trans h)
  exact hfrom

/-- Escaping reads its table inside, fills the buffer it has sized with unreserved characters
and escapes, and is undone by unescaping, exactly on the strings of bytes below `0x80`. -/
theorem redhttpUrlEscape_escapedFrom_iff (s : CString) :
    (∃ t, redhttpUrlEscape s.bytes = .ok t ∧ EscapedFrom s.bytes t) ↔
      ∀ c ∈ s.bytes, c < 128 := by
  constructor
  · rintro ⟨t, h, -⟩
    exact (redhttpUrlEscape_ok_iff s.bytes).mp ⟨t, h⟩
  · exact exists_escapedFrom

/-- For the first byte of an `é` in UTF-8 the table is read at -4. -/
theorem redhttpUrlEscape_negative_index :
    signedChar 0xC3 >>> (4 : ℕ) = -4 ∧
      redhttpUrlEscape (CString.ofBytes [0xC3, 0xA9]).bytes = .error .outOfBounds := by
  decide

example : redhttpUrlEscape (bytesOf "a b/~") = .ok (bytesOf "a%20b%2F~") := by decide

end RedStore.RedHttp
