/-
What `redhttp_url_unescape` makes of a string, and what its callers see of it.

The loop goes over the string by an index, looks two bytes ahead of a `%` and writes through a
pointer into a buffer that is one byte longer than the string; every read and every write is
checked here.  What it writes is the decoding of the string, unit by unit.  Callers take the
buffer for a string, and that is the decoding unless one of the units is `%00`.
-/
import RedStore.RedHttp.Url

namespace RedStore.RedHttp
open CLib

/-! ### Units -/

/-- A hexadecimal digit of either case, with its value. -/
def HexDigit (c : UInt8) (n : ℕ) : Prop :=
  (bytesOf "0123456789abcdef")[n]? = some c ∨ (bytesOf "0123456789ABCDEF")[n]? = some c

/-- Two hexadecimal digits at the start of a string. -/
def TwoDigits (s : List UInt8) : Prop :=
  ∃ c₁ n₁ c₂ n₂ rest, s = c₁ :: c₂ :: rest ∧ HexDigit c₁ n₁ ∧ HexDigit c₂ n₂

/-- The decoding of a string, one byte for each of its units. -/
inductive Decoding : List UInt8 → List UInt8 → Prop where
  | nil : Decoding [] []
  | escape {c₁ c₂ : UInt8} {n₁ n₂ : ℕ} {s t : List UInt8} (h₁ : HexDigit c₁ n₁)
    (h₂ : HexDigit c₂ n₂) (ht : Decoding s t) :
    Decoding (ch '%' :: c₁ :: c₂ :: s) (UInt8.ofNat (16 * n₁ + n₂) :: t)
  | plus {s t : List UInt8} (ht : Decoding s t) : Decoding (ch '+' :: s) (ch ' ' :: t)
  | plain {c : UInt8} {s t : List UInt8} (hplus : c ≠ ch '+')
    (hescape : c = ch '%' → ¬ TwoDigits s) (ht : Decoding s t) : Decoding (c :: s) (c :: t)

lemma HexDigit.lt {c : UInt8} {n : ℕ} (h : HexDigit c n) : n < 16 := by
  rcases h with h | h
  · exact (List.getElem?_eq_some_iff.mp h).1
  · exact (List.getElem?_eq_some_iff.mp h).1

lemma hexDecode_eq_some {c : UInt8} {n : ℕ} (h : HexDigit c n) :
    hexDecode c = some (UInt8.ofNat n) := by
  have hall : ∀ n < 16, (∀ c ∈ (bytesOf "0123456789abcdef")[n]?, hexDecode c = some (UInt8.ofNat n)) ∧
      ∀ c ∈ (bytesOf "0123456789ABCDEF")[n]?, hexDecode c = some (UInt8.ofNat n) := by decide +kernel
  have hn := h.lt
  rcases h with h | h
  · exact (hall n hn).1 c h
  · exact (hall n hn).2 c h

lemma exists_hexDigit {c v : UInt8} (h : hexDecode c = some v) :
    ∃ n, HexDigit c n ∧ v = UInt8.ofNat n := by
  have hall : ∀ v ∈ hexDecode c, v.toNat < 16 ∧ (v = UInt8.ofNat v.toNat) ∧
      ((bytesOf "0123456789abcdef")[v.toNat]? = some c ∨
        (bytesOf "0123456789ABCDEF")[v.toNat]? = some c) :=
    forall_uint8 (p := fun c => ∀ v ∈ hexDecode c, v.toNat < 16 ∧ (v = UInt8.ofNat v.toNat) ∧
      ((bytesOf "0123456789abcdef")[v.toNat]? = some c ∨
        (bytesOf "0123456789ABCDEF")[v.toNat]? = some c)) (by decide +kernel) c
  obtain ⟨-, hv, hdigit⟩ := hall v h
  exact ⟨v.toNat, hdigit, hv⟩

/-- The two bytes behind a `%` are looked at as they are said to be. -/
lemma hexPair_of_digits {c₁ c₂ : UInt8} {n₁ n₂ : ℕ} (h₁ : HexDigit c₁ n₁) (h₂ : HexDigit c₂ n₂)
    (s : List UInt8) : hexPair (c₁ :: c₂ :: s) = some (UInt8.ofNat (16 * n₁ + n₂)) := by
  have hbyte : ∀ n₁ < 16, ∀ n₂ < 16,
      UInt8.ofNat n₁ * 16 + UInt8.ofNat n₂ = UInt8.ofNat (16 * n₁ + n₂) := by decide
  simp only [hexPair, hexDecode_eq_some h₁, hexDecode_eq_some h₂, hbyte n₁ h₁.lt n₂ h₂.lt]

lemma hexPair_eq_none_iff {s : List UInt8} : hexPair s = none ↔ ¬ TwoDigits s := by
  constructor
  · rintro h ⟨c₁, n₁, c₂, n₂, rest, rfl, h₁, h₂⟩
    rw [hexPair_of_digits h₁ h₂] at h
    cases h
  · intro h
    match s with
    | [] => rfl
    | [_] => rfl
    | c₁ :: c₂ :: rest =>
      cases hd₁ : hexDecode c₁ with
      | none => simp only [hexPair, hd₁]
      | some v₁ =>
        cases hd₂ : hexDecode c₂ with
        | none => simp only [hexPair, hd₁, hd₂]
        | some v₂ =>
          obtain ⟨n₁, h₁, -⟩ := exists_hexDigit hd₁
          obtain ⟨n₂, h₂, -⟩ := exists_hexDigit hd₂
          exact absurd ⟨c₁, n₁, c₂, n₂, rest, rfl, h₁, h₂⟩ h

/-- The digits behind a `%`, if they are there. -/
lemma twoDigits_of_hexPair {s : List UInt8} {b : UInt8} (h : hexPair s = some b) :
    ∃ c₁ n₁ c₂ n₂ rest, s = c₁ :: c₂ :: rest ∧ HexDigit c₁ n₁ ∧ HexDigit c₂ n₂ ∧
      b = UInt8.ofNat (16 * n₁ + n₂) := by
  by_cases hdigits : TwoDigits s
  · obtain ⟨c₁, n₁, c₂, n₂, rest, rfl, h₁, h₂⟩ := hdigits
    rw [hexPair_of_digits h₁ h₂, Option.some.injEq] at h
    exact ⟨c₁, n₁, c₂, n₂, rest, rfl, h₁, h₂, h.symm⟩
  · rw [hexPair_eq_none_iff.mpr hdigits] at h
    cases h

/-- What the decoder writes is the only decoding. -/
lemma decoding_iff {s t : List UInt8} : Decoding s t ↔ t = redhttpUrlUnescape s := by
  constructor
  · intro h
    induction h with
    | nil => rfl
    | escape h₁ h₂ _ ih =>
      rw [ih, redhttpUrlUnescape, redhttpUrlUnescape, unescapeFrom, if_pos rfl,
        hexPair_of_digits h₁ h₂]
      rfl
    | plus _ ih =>
      have hpercent : ch '+' ≠ ch '%' := by decide
      rw [ih, redhttpUrlUnescape, redhttpUrlUnescape, unescapeFrom, if_neg hpercent, if_pos rfl]
    | @plain c s t hplus hescape _ ih =>
      rw [ih, redhttpUrlUnescape, redhttpUrlUnescape, unescapeFrom]
      by_cases hpercent : c = ch '%'
      · rw [if_pos hpercent, hexPair_eq_none_iff.mpr (hescape hpercent)]
      · rw [if_neg hpercent, if_neg hplus]
  · rintro rfl
    induction hn : s.length using Nat.strong_induction_on generalizing s with
    | _ n ih =>
      subst hn
      cases s with
      | nil => exact .nil
      | cons c s =>
        rw [redhttpUrlUnescape, unescapeFrom]
        have hnext : Decoding s (redhttpUrlUnescape s) := ih s.length (by simp) rfl
        by_cases hpercent : c = ch '%'
        · rw [if_pos hpercent]
          cases hpair : hexPair s with
          | none =>
            have hplus : c ≠ ch '+' := hpercent ▸ by decide
            exact .plain hplus (fun _ => hexPair_eq_none_iff.mp hpair) hnext
          | some b =>
            obtain ⟨c₁, n₁, c₂, n₂, rest, rfl, h₁, h₂, rfl⟩ := twoDigits_of_hexPair hpair
            rw [hpercent]
            exact .escape h₁ h₂ (ih rest.length (by simp; omega) rfl)
        · rw [if_neg hpercent]
          by_cases hplus : c = ch '+'
          · rw [if_pos hplus, hplus]
            exact .plus hnext
          · rw [if_neg hplus]
            exact .plain hplus (fun h => absurd h hpercent) hnext

/-! ### The loop -/

/-- `escaped[i]`, up to the terminator. -/
def readChar (escaped : List UInt8) (i : ℕ) : Except Fault UInt8 :=
  match (escaped ++ [0])[i]? with
  | some c => .ok c
  | none => .error .outOfBounds

/-- `*ptr++ = c`, in a buffer of so many bytes of which the first ones have been written. -/
def storeChar (size : ℕ) (written : List UInt8) (c : UInt8) : Except Fault (List UInt8) :=
  if written.length < size then .ok (written ++ [c]) else .error .bufferOverflow

/-- The byte that `escaped[i]`, a `%`, and the two bytes behind it stand for, if they are a
valid escape sequence. -/
def readEscape (escaped : List UInt8) (i : ℕ) : Except Fault (Option UInt8) :=
  if i + 3 > escaped.length then .ok none
  else do
    match hexDecode (← readChar escaped (i + 1)) with
    | none => .ok none
    | some ch1 =>
      match hexDecode (← readChar escaped (i + 2)) with
      | none => .ok none
      | some ch2 => .ok (some (ch1 * 16 + ch2))

/-- The loop of `redhttp_url_unescape` from an index on, and the terminator behind it: what has
been written to the buffer. -/
def unescapeLoop (escaped : List UInt8) (i : ℕ) (written : List UInt8) :
    Except Fault (List UInt8) :=
  if i < escaped.length then do
    let c ← readChar escaped i
    if c = ch '%' then
      match ← readEscape escaped i with
      | none => unescapeLoop escaped (i + 1) (← storeChar (escaped.length + 1) written c)
      | some b => unescapeLoop escaped (i + 3) (← storeChar (escaped.length + 1) written b)
    else if c = ch '+' then
      unescapeLoop escaped (i + 1) (← storeChar (escaped.length + 1) written (ch ' '))
    else unescapeLoop escaped (i + 1) (← storeChar (escaped.length + 1) written c)
  else storeChar (escaped.length + 1) written 0
termination_by escaped.length - i

section Loop

variable {done rest : List UInt8}

lemma readChar_of_lt {k : ℕ} {c : UInt8} (h : rest[k]? = some c) :
    readChar (done ++ rest) (done.length + k) = .ok c := by
  have hk : k < rest.length := (List.getElem?_eq_some_iff.mp h).1
  have hget : (done ++ rest ++ [0])[done.length + k]? = some c := by
    rw [List.append_assoc, List.getElem?_append_right (Nat.le_add_right _ _),
      Nat.add_sub_cancel_left, List.getElem?_append_left hk, h]
  rw [readChar, hget]

lemma readEscape_eq : readEscape (done ++ ch '%' :: rest) done.length = .ok (hexPair rest) := by
  rw [readEscape]
  match rest with
  | [] => rw [if_pos (by simp)]; rfl
  | [_] => rw [if_pos (by simp)]; rfl
  | c₁ :: c₂ :: rest =>
    have hroom : ¬ done.length + 3 > (done ++ ch '%' :: c₁ :: c₂ :: rest).length := by simp
    have hone : readChar (done ++ ch '%' :: c₁ :: c₂ :: rest) (done.length + 1) = .ok c₁ :=
      readChar_of_lt rfl
    have htwo : readChar (done ++ ch '%' :: c₁ :: c₂ :: rest) (done.length + 2) = .ok c₂ :=
      readChar_of_lt rfl
    rw [if_neg hroom, hone]
    simp only [bind, Except.bind, hexPair]
    cases hexDecode c₁ with
    | none => rfl
    | some ch1 =>
      simp only [htwo]
      cases hexDecode c₂ <;> rfl

/-- The loop stays in the string and in its buffer. -/
lemma unescapeLoop_eq {written : List UInt8} (hwritten : written.length ≤ done.length) :
    unescapeLoop (done ++ rest) done.length written =
      .ok (written ++ redhttpUrlUnescape rest ++ [0]) := by
  induction hn : rest.length using Nat.strong_induction_on generalizing done rest written with
  | _ n ih =>
    subst hn
    have hstore : ∀ c, storeChar ((done ++ rest).length + 1) written c = .ok (written ++ [c]) := by
      intro c
      rw [storeChar, if_pos (by simp; omega)]
    rw [unescapeLoop]
    cases rest with
    | nil =>
      rw [if_neg (by simp), hstore]
      simp [redhttpUrlUnescape, unescapeFrom]
    | cons c rest =>
      have hread : readChar (done ++ c :: rest) done.length = .ok c :=
        readChar_of_lt (k := 0) rfl
      have hnext : ∀ b : UInt8, unescapeLoop (done ++ c :: rest) (done.length + 1) (written ++ [b]) =
          .ok (written ++ b :: redhttpUrlUnescape rest ++ [0]) := by
        intro b
        have hlength : (written ++ [b]).length ≤ (done ++ [c]).length := by simpa using hwritten
        have hrest := ih rest.length (by simp) hlength rfl
        simpa using hrest
      rw [if_pos (by simp), hread, redhttpUrlUnescape, unescapeFrom]
      simp only [bind, Except.bind, hstore]
      by_cases hpercent : c = ch '%'
      · subst hpercent
        rw [if_pos rfl, if_pos rfl, readEscape_eq]
        cases hpair : hexPair rest with
        | none => exact hnext _
        | some b =>
          obtain ⟨c₁, -, c₂, -, rest', rfl, -⟩ := twoDigits_of_hexPair hpair
          have hlength : (written ++ [b]).length ≤ (done ++ [ch '%', c₁, c₂]).length := by
            simp only [List.length_append, List.length_cons, List.length_nil]
            omega
          have hrest := ih rest'.length (by simp; omega) hlength rfl
          simpa [unescapeFrom, redhttpUrlUnescape] using hrest
      · rw [if_neg hpercent, if_neg hpercent]
        by_cases hplus : c = ch '+'
        · rw [if_pos hplus, if_pos hplus]
          exact hnext _
        · rw [if_neg hplus, if_neg hplus]
          exact hnext _

end Loop

/-! ### What callers see -/

/-- A unit stands for NUL exactly if it is `%00`. -/
lemma zero_mem_decoding_iff {s t : List UInt8} (h : Decoding s t) (hs : (0 : UInt8) ∉ s) :
    (0 : UInt8) ∈ t ↔ bytesOf "%00" <:+: s := by
  have hunit : ∀ c s, bytesOf "%00" <:+: c :: s ↔
      (c = ch '%' ∧ bytesOf "00" <+: s) ∨ bytesOf "%00" <:+: s := by
    intro c s
    rw [List.infix_cons_iff]
    refine or_congr_left ?_
    show ch '%' :: bytesOf "00" <+: c :: s ↔ _
    rw [List.cons_prefix_cons, eq_comm]
  have hnot : ∀ {c : UInt8} {n : ℕ}, HexDigit c n → c ≠ ch '%' := by
    rintro _ n h rfl
    have := hexDecode_eq_some h
    exact absurd this (by simp [hexDecode, ch])
  induction h with
  | nil => decide
  | @escape c₁ c₂ n₁ n₂ s t h₁ h₂ _ ih =>
    simp only [List.mem_cons, not_or] at hs
    have hbyte : ∀ n₁ < 16, ∀ n₂ < 16, (0 = UInt8.ofNat (16 * n₁ + n₂) ↔ n₁ = 0 ∧ n₂ = 0) := by
      decide
    have hzero : ∀ {c : UInt8} {n : ℕ}, HexDigit c n → (n = 0 ↔ c = ch '0') := by
      intro c n h
      constructor
      · rintro rfl
        rcases h with h | h <;> exact (Option.some.inj h).symm
      · rintro rfl
        have hall : ∀ n < 16, (bytesOf "0123456789abcdef")[n]? = some (ch '0') ∨
            (bytesOf "0123456789ABCDEF")[n]? = some (ch '0') → n = 0 := by decide
        exact hall n h.lt h
    have hdigits : bytesOf "00" <+: c₁ :: c₂ :: s ↔ c₁ = ch '0' ∧ c₂ = ch '0' := by
      show ch '0' :: ch '0' :: [] <+: c₁ :: c₂ :: s ↔ _
      rw [List.cons_prefix_cons, List.cons_prefix_cons]
      simp [eq_comm]
    have hrest : (0 : UInt8) ∈ t ↔ bytesOf "%00" <:+: s := ih hs.2.2.2
    rw [List.mem_cons, hrest, hunit, hunit, hunit, hbyte n₁ h₁.lt n₂ h₂.lt, hzero h₁,
      hzero h₂, hdigits]
    simp [hnot h₁, hnot h₂]
  | @plus s t _ ih =>
    rw [List.mem_cons, not_or] at hs
    have hplus : ch '+' ≠ ch '%' := by decide
    have hblank : (0 : UInt8) ≠ ch ' ' := by decide
    have hrest : (0 : UInt8) ∈ t ↔ bytesOf "%00" <:+: s := ih hs.2
    rw [List.mem_cons, hrest, hunit]
    simp [hplus, hblank]
  | @plain c s t _ hescape _ ih =>
    rw [List.mem_cons, not_or] at hs
    have hdigits : ¬ (c = ch '%' ∧ bytesOf "00" <+: s) := by
      rintro ⟨hpercent, rest, rfl⟩
      exact hescape hpercent ⟨ch '0', 0, ch '0', 0, rest, rfl, Or.inl rfl, Or.inl rfl⟩
    have hrest : (0 : UInt8) ∈ t ↔ bytesOf "%00" <:+: s := ih hs.2
    rw [List.mem_cons, hrest, hunit]
    simp [hdigits, hs.1]

/-- No unit goes on behind a slash. -/
lemma Decoding.append_slash {s t s' t' : List UInt8} (h : Decoding s t) (h' : Decoding s' t') :
    Decoding (s ++ ch '/' :: s') (t ++ ch '/' :: t') := by
  have hslash : ∀ n, ¬ HexDigit (ch '/') n := by
    intro n hdigit
    exact absurd (hexDecode_eq_some hdigit) (by simp [hexDecode, ch])
  induction h with
  | nil => exact .plain (by decide) (fun h => absurd h (by decide)) h'
  | escape h₁ h₂ _ ih => exact .escape h₁ h₂ ih
  | plus _ ih => exact .plus ih
  | @plain c s t hplus hescape _ ih =>
    refine .plain hplus (fun hpercent => ?_) ih
    rintro ⟨c₁, n₁, c₂, n₂, rest, hsplit, h₁, h₂⟩
    cases s with
    | nil =>
      obtain rfl : ch '/' = c₁ := (List.cons.inj hsplit).1
      exact hslash n₁ h₁
    | cons a s =>
      obtain ⟨rfl, hrest⟩ := List.cons.inj hsplit
      cases s with
      | nil =>
        obtain rfl : ch '/' = c₂ := (List.cons.inj hrest).1
        exact hslash n₂ h₂
      | cons b s =>
        obtain ⟨rfl, -⟩ := List.cons.inj hrest
        exact hescape hpercent ⟨_, n₁, _, n₂, s, rfl, h₁, h₂⟩

/-- A slash divides a string for the decoder. -/
lemma redhttpUrlUnescape_append_slash (s s' : List UInt8) :
    redhttpUrlUnescape (s ++ ch '/' :: s') =
      redhttpUrlUnescape s ++ ch '/' :: redhttpUrlUnescape s' :=
  (decoding_iff.mp ((decoding_iff.mpr rfl).append_slash (decoding_iff.mpr rfl))).symm

lemma ofBytes_eq_self_iff {b : List UInt8} : (CString.ofBytes b).bytes = b ↔ (0 : UInt8) ∉ b :=
  ⟨fun h => h ▸ (CString.ofBytes b).nul_free, CString.bytes_ofBytes_of_not_mem⟩

/-- The decoder reads up to the terminator of its string and writes no more bytes than that
string has with its terminator.  Callers see the decoding of the string, with a byte for each of
its units, exactly if `%00` is not in it. -/
theorem redhttpUrlUnescape_decoding_iff (s : CString) : ∃ buffer t,
    unescapeLoop s.bytes 0 [] = .ok buffer ∧ buffer.length ≤ s.strlen + 1 ∧
      CString.ofBytes buffer = unescaped s.bytes ∧
      Decoding s.bytes t ∧ (∀ t', Decoding s.bytes t' → t' = t) ∧
      ((unescaped s.bytes).bytes = t ∧ (unescaped s.bytes).strlen = t.length ↔
        ¬ bytesOf "%00" <:+: s.bytes) := by
  have hempty : ([] : List UInt8).length ≤ ([] : List UInt8).length := le_rfl
  have hloop : unescapeLoop s.bytes 0 [] = .ok (redhttpUrlUnescape s.bytes ++ [0]) :=
    unescapeLoop_eq hempty
  have hdecoding : Decoding s.bytes (redhttpUrlUnescape s.bytes) := decoding_iff.mpr rfl
  have hlength : (redhttpUrlUnescape s.bytes ++ [0]).length ≤ s.strlen + 1 := by
    rw [List.length_append]
    exact Nat.add_le_add_right (length_unescapeFrom_le 0 s.bytes) 1
  have hseen : CString.ofBytes (redhttpUrlUnescape s.bytes ++ [0]) = unescaped s.bytes := by
    rw [unescaped, CString.ext_iff, CString.bytes_ofBytes, CString.bytes_ofBytes]
    induction redhttpUrlUnescape s.bytes with
    | nil => rfl
    | cons c t ih => simp [List.takeWhile_cons, ih]
  refine ⟨_, _, hloop, hlength, hseen, hdecoding, fun t' ht' => decoding_iff.mp ht', ?_⟩
  rw [← zero_mem_decoding_iff hdecoding s.nul_free, ← ofBytes_eq_self_iff]
  exact and_iff_left_of_imp fun h => congrArg List.length h

/-- Of `a%00b` callers see no more than `a`. -/
theorem unescaped_cut :
    Decoding (CString.lit "a%00b").bytes [ch 'a', 0, ch 'b'] ∧
      (unescaped (CString.lit "a%00b").bytes).bytes = [ch 'a'] :=
  ⟨decoding_iff.mpr (by decide), by decide⟩

end RedStore.RedHttp
