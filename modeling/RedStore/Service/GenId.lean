/-
`genid.c`: the identifiers of new graphs.
-/
import RedStore.Service.Redland

namespace RedStore.Service
open CLib RedHttp

/-- `REDSTORE_ID_LEN`. -/
def redstoreIdLen : ℕ := 9

/-- The characters that an identifier is made of. -/
def idChars : List UInt8 := bytesOf "0123456789abcdef"

/-- The loop of `redstore_genid`, in at most `fuel` rounds. -/
def genidLoop : ℕ → ℕ → ℕ → ℕ → List UInt8
  | 0, _, _, _ => []
  | fuel + 1, i, index, quotient =>
    if i < redstoreIdLen then
      let remainder := quotient % 16
      let index := (index + i + remainder) % 16
      let c := idChars.getD index 0
      -- a dash after the fourth character
      if i = 3 then c :: ch '-' :: genidLoop fuel (i + 2) index (quotient / 16)
      else c :: genidLoop fuel (i + 1) index (quotient / 16)
    else []

/-- The identifier that is made of a number. -/
def genidText (n : ℕ) : CString := CString.ofBytes (genidLoop redstoreIdLen 0 0 n)

/-! ### What an identifier is made of -/

lemma mem_genidLoop {c : UInt8} {fuel i index quotient : ℕ}
    (h : c ∈ genidLoop fuel i index quotient) : c ∈ ch '-' :: idChars := by
  have hdigit : ∀ n, idChars.getD (n % 16) 0 ∈ ch '-' :: idChars := by
    have hall : ∀ n < 16, idChars.getD n 0 ∈ ch '-' :: idChars := by decide
    exact fun n => hall _ (Nat.mod_lt _ (by decide))
  induction fuel generalizing i index quotient with
  | zero => simp [genidLoop] at h
  | succ fuel ih =>
    rw [genidLoop] at h
    split at h
    · dsimp only at h
      split at h
      · rcases List.mem_cons.mp h with rfl | h
        · exact hdigit _
        rcases List.mem_cons.mp h with rfl | h
        · exact List.mem_cons_self
        · exact ih h
      · rcases List.mem_cons.mp h with rfl | h
        · exact hdigit _
        · exact ih h
    · simp at h

lemma bytes_genidText (n : ℕ) : (genidText n).bytes = genidLoop redstoreIdLen 0 0 n :=
  CString.bytes_ofBytes_of_not_mem fun h => absurd (mem_genidLoop h) (by decide)

/-- How many digits of the number the loop takes. -/
def genidRounds : ℕ → ℕ → ℕ
  | 0, _ => 0
  | fuel + 1, i =>
    if i < redstoreIdLen then genidRounds fuel (if i = 3 then i + 2 else i + 1) + 1 else 0

/-- The digits can be read back from the characters. -/
lemma genidLoop_injective {fuel i index quotient quotient' : ℕ}
    (h : genidLoop fuel i index quotient = genidLoop fuel i index quotient') :
    quotient % 16 ^ genidRounds fuel i = quotient' % 16 ^ genidRounds fuel i := by
  induction fuel generalizing i index quotient quotient' with
  | zero => simp only [genidRounds, Nat.pow_zero, Nat.mod_one]
  | succ fuel ih =>
    have hchars : ∀ m < 16, ∀ n < 16, idChars.getD m 0 = idChars.getD n 0 → m = n := by decide
    rw [genidLoop, genidLoop] at h
    rw [genidRounds]
    by_cases hi : i < redstoreIdLen
    · simp only [hi, if_true] at h ⊢
      have hhead : (index + i + quotient % 16) % 16 = (index + i + quotient' % 16) % 16 := by
        refine hchars _ (Nat.mod_lt _ (by decide)) _ (Nat.mod_lt _ (by decide)) ?_
        split at h
        · exact (List.cons.inj h).1
        · exact (List.cons.inj h).1
      have hdigit : quotient % 16 = quotient' % 16 := by omega
      have hrest : quotient / 16 % 16 ^ genidRounds fuel (if i = 3 then i + 2 else i + 1) =
          quotient' / 16 % 16 ^ genidRounds fuel (if i = 3 then i + 2 else i + 1) := by
        rw [hhead] at h
        split at h
        · next hthree =>
          rw [if_pos hthree]
          exact ih (List.cons.inj (List.cons.inj h).2).2
        · next hthree =>
          rw [if_neg hthree]
          exact ih (List.cons.inj h).2
      rw [Nat.pow_succ', Nat.mod_mul, Nat.mod_mul, hdigit, hrest]
    · simp only [hi, if_false, Nat.pow_zero, Nat.mod_one]

/-- An identifier shows the last 32 bits of its number. -/
theorem genidText_injective {n m : ℕ} (h : genidText n = genidText m) :
    n % 2 ^ 32 = m % 2 ^ 32 := by
  have hloop : genidLoop redstoreIdLen 0 0 n = genidLoop redstoreIdLen 0 0 m := by
    rw [← bytes_genidText, ← bytes_genidText, h]
  exact genidLoop_injective hloop

variable {T R σ : Type} (w : World T R σ)

/-- `redstore_genid`. -/
def redstoreGenid : ServiceM σ CString := do
  let baseId := (← get).app.baseId
  let baseId := if baseId = 0 then w.random % longRange else baseId
  modifyApp fun app => { app with baseId := (baseId + 1) % longRange }
  pure (genidText baseId)

/-- The first identifier after 0. -/
example : genidText 1 = CString.lit "1247-c291" := by decide +kernel

end RedStore.Service
