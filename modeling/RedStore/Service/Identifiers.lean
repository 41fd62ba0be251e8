/-
A run of `redstore_genid`.

The number that identifiers are made of counts up, and an identifier shows exactly its last 32
bits: each of its eight digits is the sum of the digit before it, the position and four bits of
the number, so that the bits can be read back one digit after the other.
-/
import RedStore.Service.MemoryWorld
import RedStore.Service.Uploads

namespace RedStore.Service
open CLib RedHttp

/-- Four lower-case hexadecimal digits, a dash, and four more. -/
def IdForm (s : List UInt8) : Prop :=
  ∃ front back, s = front ++ ch '-' :: back ∧ front.length = 4 ∧ back.length = 4 ∧
    ∀ c ∈ front ++ back, c ∈ idChars

lemma idForm_genidText (n : ℕ) : IdForm (genidText n).bytes := by
  have hdigit : ∀ n, idChars.getD (n % 16) 0 ∈ idChars := by
    have hall : ∀ n < 16, idChars.getD n 0 ∈ idChars := by decide
    exact fun n => hall _ (Nat.mod_lt _ (by decide))
  have hrounds : ∃ n₀ n₁ n₂ n₃ n₄ n₅ n₆ n₇, genidLoop redstoreIdLen 0 0 n =
      [n₀, n₁, n₂, n₃].map (fun n => idChars.getD (n % 16) 0) ++
        ch '-' :: [n₄, n₅, n₆, n₇].map fun n => idChars.getD (n % 16) 0 :=
    ⟨_, _, _, _, _, _, _, _, rfl⟩
  obtain ⟨n₀, n₁, n₂, n₃, n₄, n₅, n₆, n₇, hloop⟩ := hrounds
  rw [bytes_genidText, hloop]
  refine ⟨_, _, rfl, rfl, rfl, fun c hc => ?_⟩
  rw [← List.map_append, List.mem_map] at hc
  obtain ⟨n, -, rfl⟩ := hc
  exact hdigit n

/-- The characters show no more than the digits that the loop takes. -/
lemma genidLoop_congr {fuel i index quotient quotient' : ℕ}
    (h : quotient % 16 ^ genidRounds fuel i = quotient' % 16 ^ genidRounds fuel i) :
    genidLoop fuel i index quotient = genidLoop fuel i index quotient' := by
  induction fuel generalizing i index quotient quotient' with
  | zero => rfl
  | succ fuel ih =>
    rw [genidRounds] at h
    rw [genidLoop, genidLoop]
    by_cases hi : i < redstoreIdLen
    · rw [if_pos hi, Nat.pow_succ', Nat.mod_mul, Nat.mod_mul] at h
      have hdigit : quotient % 16 = quotient' % 16 := by omega
      have hrest : quotient / 16 % 16 ^ genidRounds fuel (if i = 3 then i + 2 else i + 1) =
          quotient' / 16 % 16 ^ genidRounds fuel (if i = 3 then i + 2 else i + 1) := by omega
      simp only [hi, if_true, hdigit]
      split
      · next hthree =>
        rw [if_pos hthree] at hrest
        rw [ih hrest]
      · next hthree =>
        rw [if_neg hthree] at hrest
        rw [ih hrest]
    · rw [if_neg hi, if_neg hi]

/-- An identifier is made of the last 32 bits of its number, and shows them. -/
lemma genidText_eq_iff {n m : ℕ} : genidText n = genidText m ↔ n % 2 ^ 32 = m % 2 ^ 32 := by
  refine ⟨genidText_injective, fun h => CString.ext ?_⟩
  have hrounds : 16 ^ genidRounds redstoreIdLen 0 = 2 ^ 32 := by decide
  have hloop : genidLoop redstoreIdLen 0 0 n = genidLoop redstoreIdLen 0 0 m :=
    genidLoop_congr (by rw [hrounds, h])
  rw [bytes_genidText, bytes_genidText, hloop]

variable {T R σ : Type} (w : World T R σ)

/-- Some calls of `redstore_genid`, one after the other. -/
def genids : ℕ → ServiceM σ (List CString)
  | 0 => pure []
  | calls + 1 => do
    let id ← redstoreGenid w
    let ids ← genids calls
    pure (id :: ids)

variable {w}

lemma redstoreGenid_apply (c : Conn (App σ)) : redstoreGenid w c =
    .ok (genidText (currentBaseId w c.app)) (genidConn w c) := rfl

/-- As long as `base_id` does not wrap, the numbers count up. -/
lemma genids_eq (calls : ℕ) (c : Conn (App σ))
    (hwrap : currentBaseId w c.app + calls ≤ longRange) :
    ∃ c', genids w calls c =
      .ok ((List.range calls).map fun i => genidText (currentBaseId w c.app + i)) c' := by
  induction calls generalizing c with
  | zero => exact ⟨c, rfl⟩
  | succ calls ih =>
    set first := currentBaseId w c.app with hfirst
    have hlist : (List.range (calls + 1)).map (fun i => genidText (first + i)) =
        genidText first :: (List.range calls).map fun i => genidText (first + 1 + i) := by
      rw [List.range_succ_eq_map, List.map_cons, List.map_map]
      simp [Function.comp_def, Nat.add_assoc, Nat.add_comm 1]
    cases calls with
    | zero => exact ⟨genidConn w c, rfl⟩
    | succ calls =>
      have hlt : (first + 1) % longRange = first + 1 := Nat.mod_eq_of_lt (by omega)
      have hnext : currentBaseId w (genidConn w c).app = first + 1 := by
        rw [currentBaseId, genidConn, ← hfirst, hlt, if_neg (Nat.succ_ne_zero first)]
      obtain ⟨c', hc'⟩ := ih (genidConn w c) (by rw [hnext]; omega)
      refine ⟨c', ?_⟩
      rw [genids, bind_of_ok (redstoreGenid_apply c), bind_of_ok hc', hnext, hlist]
      rfl

/-- The identifiers of a run in which `base_id` does not wrap have the form that they are to have,
and any two of them that are fewer than 2^32 calls apart differ. -/
theorem redstoreGenid_run (calls : ℕ) (c : Conn (App σ))
    (hwrap : currentBaseId w c.app + calls ≤ longRange) :
    (∃ ids c', genids w calls c = .ok ids c' ∧ ids.length = calls ∧
      (∀ id ∈ ids, IdForm id.bytes) ∧
      (∀ i, i < calls → ids[i]? = some (genidText (currentBaseId w c.app + i))) ∧
      ∀ i j, i < j → j < calls → j - i < 2 ^ 32 → ids[i]? ≠ ids[j]?) ∧
    ∀ n m, genidText n = genidText m ↔ n % 2 ^ 32 = m % 2 ^ 32 := by
  obtain ⟨c', hrun⟩ := genids_eq calls c hwrap
  have hget : ∀ i, i < calls →
      ((List.range calls).map fun i => genidText (currentBaseId w c.app + i))[i]? =
        some (genidText (currentBaseId w c.app + i)) := by
    intro i hi
    rw [List.getElem?_map, List.getElem?_range hi, Option.map_some]
  refine ⟨⟨_, c', hrun, by simp, ?_, hget, ?_⟩, fun _ _ => genidText_eq_iff⟩
  · intro id hid
    obtain ⟨i, -, rfl⟩ := List.mem_map.mp hid
    exact idForm_genidText _
  · intro i j hij hj hnear heq
    rw [hget i (by omega), hget j hj, Option.some.injEq, genidText_eq_iff] at heq
    omega

/-- A run of two calls from the start of the program. -/
theorem redstoreGenid_run_start : ∃ ids c', genids memoryWorld 2
    ⟨redhttpRequestNew none default default [], { storage := [] }⟩ = .ok ids c' ∧
      ids.length = 2 ∧ (∀ id ∈ ids, IdForm id.bytes) ∧ ids[0]? ≠ ids[1]? := by
  obtain ⟨⟨ids, c', hrun, hlength, hform, -, hdiffer⟩, -⟩ := redstoreGenid_run (w := memoryWorld) 2
    ⟨redhttpRequestNew none default default [], { storage := [] }⟩ (by decide +kernel)
  exact ⟨ids, c', hrun, hlength, hform,
    hdiffer 0 1 (by decide) (by decide) (by decide)⟩

end RedStore.Service
