/-
`url.c`: percent-decoding and percent-encoding.

`redhttp_url_unescape` writes its result into a buffer of its own, and `%00` puts a NUL
into that buffer; callers take the buffer for a string, so what they see is
`CString.ofBytes` of it.  `redhttp_url_escape` looks up the two halves of an unsafe `char` in a
table of 16; from `0x80` on a `char` is negative, and so is the index.
-/
import RedStore.CLib.Machine

namespace RedStore.RedHttp
open CLib

/-- `hex_decode`: the value of a hexadecimal digit, `none` for the source's -1. -/
def hexDecode (c : UInt8) : Option UInt8 :=
  if 48 ≤ c && c ≤ 57 then some (c - 48)
  else if 65 ≤ c && c ≤ 70 then some (c - 65 + 10)
  else if 97 ≤ c && c ≤ 102 then some (c - 97 + 10)
  else none

/-- The byte that the next two characters denote, if both are there and are digits. -/
def hexPair : List UInt8 → Option UInt8
  | c₁ :: c₂ :: _ =>
    match hexDecode c₁, hexDecode c₂ with
    | some h₁, some h₂ => some (h₁ * 16 + h₂)
    | _, _ => none
  | _ => none

/-- The loop of `redhttp_url_unescape`; `skip` counts the characters that `i += 2` has
still to step over. -/
def unescapeFrom : ℕ → List UInt8 → List UInt8
  | _, [] => []
  | skip + 1, _ :: rest => unescapeFrom skip rest
  | 0, c :: rest =>
    if c = ch '%' then
      match hexPair rest with
      | some b => b :: unescapeFrom 2 rest
      -- invalid escape sequences are passed straight through
      | none => c :: unescapeFrom 0 rest
    else if c = ch '+' then
      ch ' ' :: unescapeFrom 0 rest
    else
      c :: unescapeFrom 0 rest

/-- `redhttp_url_unescape`: the bytes written to the new buffer. -/
def redhttpUrlUnescape (escaped : List UInt8) : List UInt8 := unescapeFrom 0 escaped

/-- `redhttp_url_unescape` as its callers see it. -/
def unescaped (s : List UInt8) : CString := CString.ofBytes (redhttpUrlUnescape s)

lemma length_unescapeFrom_le (skip : ℕ) (s : List UInt8) :
    (unescapeFrom skip s).length ≤ s.length - skip := by
  induction s generalizing skip with
  | nil => simp [unescapeFrom]
  | cons c s ih =>
    cases skip with
    | succ skip =>
      rw [unescapeFrom, List.length_cons, Nat.add_sub_add_right]
      exact ih skip
    | zero =>
      have hrest : ∀ skip, (unescapeFrom skip s).length ≤ s.length :=
        fun skip => (ih skip).trans (Nat.sub_le _ _)
      rw [unescapeFrom]
      split_ifs
      · split
        · exact Nat.succ_le_succ (hrest 2)
        · exact Nat.succ_le_succ (hrest 0)
      · exact Nat.succ_le_succ (hrest 0)
      · exact Nat.succ_le_succ (hrest 0)

/-- Decoding makes nothing longer. -/
lemma length_unescaped_le (s : List UInt8) : (unescaped s).bytes.length ≤ s.length :=
  (CString.bytes_ofBytes_sublist _).length_le.trans (length_unescapeFrom_le 0 s)

/-- A text in which there is nothing to decode. -/
structure Undecoded (s : List UInt8) : Prop where
  plus : ch '+' ∉ s
  escape : ∀ rest, ch '%' :: rest <:+ s → hexPair rest = none

lemma undecoded_cons {c : UInt8} {s : List UInt8} :
    Undecoded (c :: s) ↔ (c ≠ ch '+' ∧ (c = ch '%' → hexPair s = none)) ∧ Undecoded s := by
  constructor
  · intro h
    refine ⟨⟨fun heq => h.plus (heq ▸ List.mem_cons_self), fun heq => ?_⟩,
      fun hmem => h.plus (List.mem_cons_of_mem _ hmem), fun rest hrest => ?_⟩
    · exact h.escape s (heq ▸ List.suffix_refl _)
    · exact h.escape rest (hrest.trans (List.suffix_cons _ _))
  · rintro ⟨⟨hplus, hescape⟩, h⟩
    refine ⟨fun hmem => ?_, fun rest hrest => ?_⟩
    · rcases List.mem_cons.mp hmem with heq | hmem
      · exact hplus heq.symm
      · exact h.plus hmem
    · rcases List.suffix_cons_iff.mp hrest with heq | hrest
      · obtain ⟨rfl, rfl⟩ := List.cons.inj heq
        exact hescape rfl
      · exact h.escape rest hrest

lemma two_le_length_of_hexPair {s : List UInt8} {b : UInt8} (h : hexPair s = some b) :
    2 ≤ s.length := by
  match s with
  | [] => cases h
  | [_] => cases h
  | _ :: _ :: s => simp

/-- Decoding leaves exactly the texts with nothing to decode as they are. -/
lemma redhttpUrlUnescape_eq_self_iff (s : List UInt8) :
    redhttpUrlUnescape s = s ↔ Undecoded s := by
  rw [redhttpUrlUnescape]
  induction s with
  | nil => exact iff_of_true rfl ⟨by simp, by simp⟩
  | cons c s ih =>
    rw [undecoded_cons, unescapeFrom]
    by_cases hpercent : c = ch '%'
    · rw [if_pos hpercent]
      have hplus : c ≠ ch '+' := hpercent ▸ (by decide)
      cases hpair : hexPair s with
      | none => simp [hplus, ih]
      | some b =>
        -- the two digits are gone
        refine iff_of_false (fun heq => ?_) (by simp [hpercent])
        have hlength := congrArg List.length heq
        have hle := length_unescapeFrom_le 2 s
        have htwo := two_le_length_of_hexPair hpair
        simp only [List.length_cons] at hlength
        omega
    · rw [if_neg hpercent]
      by_cases hplus : c = ch '+'
      · rw [if_pos hplus]
        refine iff_of_false (fun heq => ?_) (by simp [hplus])
        exact absurd (hplus.symm.trans (List.cons.inj heq).1.symm) (by decide)
      · rw [if_neg hplus]
        simp [hplus, hpercent, ih]

lemma unescaped_eq_self_iff (s : CString) : unescaped s.bytes = s ↔ Undecoded s.bytes := by
  rw [← redhttpUrlUnescape_eq_self_iff, CString.ext_iff]
  constructor
  · intro h
    have hsub : s.bytes.Sublist (redhttpUrlUnescape s.bytes) := by
      conv_lhs => rw [← h]
      exact CString.bytes_ofBytes_sublist _
    exact (hsub.eq_of_length_le (length_unescapeFrom_le 0 s.bytes)).symm
  · intro h
    rw [unescaped, h, CString.ofBytes_bytes]

/-- `isurlsafe`. -/
def isurlsafe (c : UInt8) : Bool :=
  islower c || isupper c || isdigit c || c ∈ bytesOf "-._~"

/-- The upper-case hexadecimal digit of a number below 16. -/
def hexDigit (n : UInt8) : UInt8 := if n < 10 then n + 48 else n + 55

/-- What `redhttp_url_escape` writes for a character. -/
def escapeByte (c : UInt8) : Except Fault (List UInt8) :=
  if isurlsafe c then .ok [c]
  -- `hex[c >> 4]` with a negative `c`
  else if 128 ≤ c then .error .outOfBounds
  else .ok [ch '%', hexDigit (c / 16), hexDigit (c % 16)]

/-- `redhttp_url_escape`. -/
def redhttpUrlEscape : List UInt8 → Except Fault (List UInt8)
  | [] => .ok []
  | c :: rest => do
    let escaped ← escapeByte c
    let rest ← redhttpUrlEscape rest
    .ok (escaped ++ rest)

/-- Escaping gets through exactly on the bytes below `0x80`. -/
lemma redhttpUrlEscape_ok_iff (s : List UInt8) :
    (∃ t, redhttpUrlEscape s = .ok t) ↔ ∀ c ∈ s, c < 128 := by
  have hbyte : ∀ c : UInt8, (∃ t, escapeByte c = .ok t) ↔ c < 128 := by
    intro c
    rw [escapeByte]
    split
    · next h =>
      have hlow : c < 128 := by
        revert h
        exact forall_uint8 (p := fun c => isurlsafe c = true → c < 128) (by decide +kernel) c
      simp [hlow]
    · split
      · next h => simpa using h
      · next h => simpa using h
  induction s with
  | nil => simp [redhttpUrlEscape]
  | cons c s ih =>
    have hcons : (∃ t, redhttpUrlEscape (c :: s) = .ok t) ↔
        (∃ t, escapeByte c = .ok t) ∧ ∃ t, redhttpUrlEscape s = .ok t := by
      simp only [redhttpUrlEscape, bind, Except.bind]
      cases escapeByte c with
      | error e => simp
      | ok t => cases redhttpUrlEscape s <;> simp
    rw [hcons, hbyte c, List.forall_mem_cons]
    exact and_congr_right fun _ => ih

example : redhttpUrlUnescape (bytesOf "a%20b+c%2") = bytesOf "a b c%2" := by decide

end RedStore.RedHttp
