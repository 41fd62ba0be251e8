/-
Memory that is allocated and freed, block by block.

A block gets an address that no block has had before, so that a pointer to a block that has been
freed points to nothing from then on.  `Holding` splits a memory into some cells and the rest of
it: a program that is to leave no block behind, and none that it does not own touched, ends with
no cells and the rest that it started with.  The order of the cells does not matter, and the
rules for the calls work on the first one.
-/
import Mathlib.Data.List.Perm.Basic
import RedStore.CLib.Command
import RedStore.CLib.Machine

namespace CLib

variable {α β γ : Type}

/-- The blocks that are allocated, and the address of the next one. -/
structure Memory (β : Type) where
  block : ℕ → Option β
  fresh : ℕ
  unused : ∀ p, fresh ≤ p → block p = none

/-- How a program with pointers gets stuck: by a fault, or in a list that has no end. -/
inductive Stuck where
  | fault (fault : Fault)
  | endless
deriving DecidableEq

/-- A program that works on blocks. -/
abbrev MemoryM (β : Type) : Type → Type := EStateM Stuck (Memory β)

namespace Memory

variable (m : Memory β)

/-- A new block. -/
def grow (b : β) : Memory β where
  block p := if p = m.fresh then some b else m.block p
  fresh := m.fresh + 1
  unused p hp := by rw [if_neg (by omega), m.unused p (by omega)]

/-- Another content for a block. -/
def put (p : ℕ) (b : β) : Memory β where
  block q := if q = p ∧ (m.block p).isSome then some b else m.block q
  fresh := m.fresh
  unused q hq := by
    rw [if_neg, m.unused q hq]
    rintro ⟨rfl, hsome⟩
    simp [m.unused q hq] at hsome

/-- One block less. -/
def drop (p : ℕ) : Memory β where
  block q := if q = p then none else m.block q
  fresh := m.fresh
  unused q hq := by
    split
    · rfl
    · exact m.unused q hq

/-- No block at all. -/
def empty : Memory β := ⟨fun _ => none, 0, fun _ _ => rfl⟩

end Memory

/-! ### Calls -/

/-- `malloc`, with what the block is to hold. -/
def malloc (b : β) : MemoryM β ℕ := fun m => .ok m.fresh (m.grow b)

/-- The content of a block. -/
def load (p : ℕ) : MemoryM β β := fun m =>
  match m.block p with
  | some b => .ok b m
  | none => .error (.fault .useAfterFree) m

/-- A store to a block. -/
def save (p : ℕ) (b : β) : MemoryM β Unit := fun m =>
  match m.block p with
  | some _ => .ok () (m.put p b)
  | none => .error (.fault .useAfterFree) m

/-- `free` of a block. -/
def free (p : ℕ) : MemoryM β Unit := fun m =>
  match m.block p with
  | some _ => .ok () (m.drop p)
  | none => .error (.fault .useAfterFree) m

/-- `free`, which takes NULL, too. -/
def freePointer : Option ℕ → MemoryM β Unit
  | none => pure ()
  | some p => free p

/-- The addresses that blocks have had so far: a walk from block to block that takes more steps
has been somewhere twice. -/
def walkBound : MemoryM β ℕ := fun m => .ok m.fresh m

/-! ### Freed blocks -/

/-- A block that has been freed. -/
def Memory.Dead (p : ℕ) (m : Memory β) : Prop := p < m.fresh ∧ m.block p = none

lemma Memory.dead_drop {m : Memory β} {p : ℕ} {b : β} (h : m.block p = some b) :
    (m.drop p).Dead p := by
  refine ⟨?_, if_pos rfl⟩
  by_contra hle
  rw [m.unused p (Nat.le_of_not_lt hle)] at h
  cases h

/-- To free it again is a fault. -/
lemma Memory.Dead.free {m : Memory β} {p : ℕ} (h : m.Dead p) :
    CLib.free p m = .error (.fault .useAfterFree) m := by
  rw [CLib.free, h.2]

/-- A program that leaves freed blocks as they are, as programs do that get their memory from
`malloc`. -/
def KeepsDead (x : MemoryM β α) : Prop := ∀ p, Maintains (Memory.Dead p) x

section KeepsDead

variable {x y : MemoryM β α}

lemma keepsDead_malloc (b : β) : KeepsDead (malloc b) := by
  rintro p m ⟨hlt, hnone⟩
  exact ⟨Nat.lt_succ_of_lt hlt, (if_neg (Nat.ne_of_lt hlt)).trans hnone⟩

lemma keepsDead_load (q : ℕ) : KeepsDead (load q : MemoryM β β) := by
  intro p m h
  rw [load]
  cases m.block q <;> exact h

lemma keepsDead_save (q : ℕ) (b : β) : KeepsDead (save q b) := by
  rintro p m ⟨hlt, hnone⟩
  rw [save]
  cases hq : m.block q with
  | none => exact ⟨hlt, hnone⟩
  | some b' =>
    have hne : p ≠ q := by
      rintro rfl
      rw [hnone] at hq
      cases hq
    exact ⟨hlt, (if_neg fun hboth => hne hboth.1).trans hnone⟩

lemma keepsDead_free (q : ℕ) : KeepsDead (free q : MemoryM β Unit) := by
  rintro p m ⟨hlt, hnone⟩
  rw [free]
  cases m.block q with
  | none => exact ⟨hlt, hnone⟩
  | some b =>
    refine ⟨hlt, ?_⟩
    show (if p = q then none else m.block p) = none
    split
    · rfl
    · exact hnone

lemma keepsDead_pure (a : α) : KeepsDead (pure a : MemoryM β α) := fun _ => maintains_pure a

lemma keepsDead_throw (e : Stuck) : KeepsDead (throw e : MemoryM β α) :=
  fun _ => triple_throw fun _ h => h

lemma keepsDead_walkBound : KeepsDead (walkBound : MemoryM β ℕ) := fun _ _ h => h

lemma keepsDead_bind {f : α → MemoryM β γ} (hx : KeepsDead x) (hf : ∀ a, KeepsDead (f a)) :
    KeepsDead (x >>= f) := fun p => triple_bind (hx p) fun a => hf a p

lemma keepsDead_map {f : α → γ} (hx : KeepsDead x) : KeepsDead (f <$> x) :=
  fun p => maintains_map (hx p)

lemma keepsDead_ite {c : Prop} [Decidable c] (hx : KeepsDead x) (hy : KeepsDead y) :
    KeepsDead (if c then x else y) := fun p => triple_ite (hx p) (hy p)

lemma keepsDead_freePointer (q : Option ℕ) : KeepsDead (freePointer q : MemoryM β Unit) := by
  cases q with
  | none => exact keepsDead_pure ()
  | some q => exact keepsDead_free q

end KeepsDead

/-! ### Cells -/

/-- The memory consists of some cells and a rest. -/
structure Holding (m : Memory β) (rest : ℕ → Option β) (cells : List (ℕ × β)) : Prop where
  nodup : (cells.map Prod.fst).Nodup
  holds : ∀ cell ∈ cells, m.block cell.1 = some cell.2
  apart : ∀ cell ∈ cells, rest cell.1 = none
  others : ∀ p ∉ cells.map Prod.fst, m.block p = rest p

section Holding

variable {m : Memory β} {rest : ℕ → Option β} {cells cells' : List (ℕ × β)} {p : ℕ} {b b' : β}

lemma ne_of_key {cell : ℕ × β} (hp : p ∉ cells.map Prod.fst) (hcell : cell ∈ cells) :
    cell.1 ≠ p := by
  rintro rfl
  exact hp (List.mem_map_of_mem hcell)

lemma holding_nil (m : Memory β) : Holding m m.block [] :=
  ⟨List.nodup_nil, by simp, by simp, fun _ _ => rfl⟩

/-- Without cells the rest is everything. -/
lemma Holding.block_eq (h : Holding m rest []) : m.block = rest :=
  funext fun p => h.others p (by simp)

/-- There are no more cells than addresses. -/
lemma Holding.length_le (h : Holding m rest cells) : cells.length ≤ m.fresh := by
  have hlt : ∀ p ∈ cells.map Prod.fst, p < m.fresh := by
    intro p hp
    obtain ⟨cell, hcell, rfl⟩ := List.mem_map.mp hp
    by_contra hle
    have hsome := h.holds cell hcell
    rw [m.unused _ (Nat.le_of_not_lt hle)] at hsome
    cases hsome
  have hsub : cells.map Prod.fst ⊆ List.range m.fresh := fun p hp => List.mem_range.mpr (hlt p hp)
  have hle := (List.subperm_of_subset h.nodup hsub).length_le
  rwa [List.length_map, List.length_range] at hle

lemma Holding.perm (h : Holding m rest cells) (hperm : cells.Perm cells') :
    Holding m rest cells' where
  nodup := (hperm.map Prod.fst).nodup_iff.mp h.nodup
  holds cell hcell := h.holds cell (hperm.mem_iff.mpr hcell)
  apart cell hcell := h.apart cell (hperm.mem_iff.mpr hcell)
  others p hp := h.others p (mt (hperm.map Prod.fst).mem_iff.mp hp)

/-- The block that `malloc` returns is one more cell. -/
lemma Holding.malloc (h : Holding m rest cells) (b : β) :
    CLib.malloc b m = .ok m.fresh (m.grow b) ∧ Holding (m.grow b) rest ((m.fresh, b) :: cells) := by
  have hnone : m.block m.fresh = none := m.unused _ le_rfl
  have hnew : m.fresh ∉ cells.map Prod.fst := by
    intro hmem
    obtain ⟨cell, hcell, heq⟩ := List.mem_map.mp hmem
    have hsome := h.holds cell hcell
    rw [heq, hnone] at hsome
    cases hsome
  refine ⟨rfl, ?_, ?_, ?_, ?_⟩
  · rw [List.map_cons, List.nodup_cons]
    exact ⟨hnew, h.nodup⟩
  · intro cell hcell
    rcases List.mem_cons.mp hcell with rfl | hcell
    · exact if_pos rfl
    · exact (if_neg (ne_of_key hnew hcell)).trans (h.holds cell hcell)
  · intro cell hcell
    rcases List.mem_cons.mp hcell with rfl | hcell
    · rw [← h.others _ hnew, hnone]
    · exact h.apart cell hcell
  · intro p hp
    rw [List.map_cons, List.mem_cons, not_or] at hp
    exact (if_neg hp.1).trans (h.others p hp.2)

lemma Holding.load (h : Holding m rest ((p, b) :: cells)) : CLib.load p m = .ok b m := by
  rw [CLib.load, h.holds (p, b) (by simp)]

/-- A store changes its cell. -/
lemma Holding.save (h : Holding m rest ((p, b) :: cells)) (b' : β) :
    CLib.save p b' m = .ok () (m.put p b') ∧ Holding (m.put p b') rest ((p, b') :: cells) := by
  have hp : m.block p = some b := h.holds (p, b) (by simp)
  have hnodup := h.nodup
  rw [List.map_cons, List.nodup_cons] at hnodup
  refine ⟨by rw [CLib.save, hp], h.nodup, ?_, ?_, ?_⟩
  · intro cell hcell
    rcases List.mem_cons.mp hcell with rfl | hcell
    · exact if_pos ⟨rfl, by simp [hp]⟩
    · have hne := ne_of_key hnodup.1 hcell
      exact (if_neg fun hboth => hne hboth.1).trans (h.holds cell (by simp [hcell]))
  · intro cell hcell
    rcases List.mem_cons.mp hcell with rfl | hcell
    · exact h.apart (p, b) (by simp)
    · exact h.apart cell (by simp [hcell])
  · intro q hq
    have hne : q ≠ p := fun heq => hq (by simp [heq])
    exact (if_neg fun hboth => hne hboth.1).trans (h.others q hq)

/-- A block that is freed is no cell any more. -/
lemma Holding.free (h : Holding m rest ((p, b) :: cells)) :
    CLib.free p m = .ok () (m.drop p) ∧ Holding (m.drop p) rest cells := by
  have hp : m.block p = some b := h.holds (p, b) (by simp)
  have hnodup := h.nodup
  rw [List.map_cons, List.nodup_cons] at hnodup
  refine ⟨by rw [CLib.free, hp], hnodup.2, ?_, fun cell hcell => h.apart cell (by simp [hcell]), ?_⟩
  · intro cell hcell
    exact (if_neg (ne_of_key hnodup.1 hcell)).trans (h.holds cell (by simp [hcell]))
  · intro q hq
    by_cases heq : q = p
    · rw [heq]
      exact (if_pos rfl).trans (h.apart (p, b) (by simp)).symm
    · exact (if_neg heq).trans (h.others q (by simp [heq, hq]))

end Holding

end CLib
