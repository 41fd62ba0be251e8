/-
`headers.c`: the list of headers in memory.

Every entry of the list is a block with a pointer to its key, one to its value and one to the
entry behind it; keys and values are blocks of their own.  What the functions of `headers.c` do
with these blocks is what the list of `RedStore.RedHttp.Headers` says, and when the list is freed
each of its blocks is freed once, so that memory is what it was before the list.
-/
import Mathlib.Algebra.Order.Group.Multiset
import Mathlib.Tactic.Abel
import RedStore.CLib.Memory
import RedStore.RedHttp.HeaderMap
import RedStore.RedHttp.Request

namespace RedStore.RedHttp
open CLib

/-! ### The functions -/

/-- `struct redhttp_header_s`, as it lies in memory. -/
structure HeaderNode where
  key : Option ℕ := none
  value : Option ℕ := none
  next : Option ℕ := none

/-- The strings that belong to a request. -/
inductive RequestString where
  | method | pathAndQuery | version | path | pathGlob | queryString | host | url
  | contentBuffer
deriving DecidableEq

/-- The lists that belong to a request. -/
inductive RequestList where
  | headers | arguments
deriving DecidableEq

/-- `struct redhttp_request_s`, as it lies in memory: its pointers, the address of the server and
the socket. -/
structure RequestNode where
  slot : RequestString → Option ℕ := fun _ => none
  list : RequestList → Option ℕ := fun _ => none
  serverAddr : CString
  serverPort : CString
  socket : Socket

/-- What a block holds. -/
inductive Cell where
  | string (s : CString)
  | header (node : HeaderNode)
  | request (node : RequestNode)

/-- A program on requests and their lists. -/
abbrev NodeM : Type → Type := MemoryM Cell

/-- The entry that a pointer points to. -/
def loadNode (it : ℕ) : NodeM HeaderNode := do
  match ← load it with
  | .header node => pure node
  | _ => throw (.fault .outOfBounds)

/-- The string that a pointer points to. -/
def loadString : Option ℕ → NodeM CString
  | none => throw (.fault .nullPointer)
  | some p => do
    match ← load p with
    | .string s => pure s
    | _ => throw (.fault .outOfBounds)

/-- `redhttp_strdup`. -/
def redhttpStrdup (s : CString) : NodeM ℕ := malloc (.string s)

/-- `value && strlen(value) ? redhttp_strdup(value) : NULL`. -/
def strdupValue (value : Option CString) : NodeM (Option ℕ) :=
  match value with
  | none => pure none
  | some v => if v.strlen = 0 then pure none else some <$> redhttpStrdup v

/-- `for (it = *first; it->next; it = it->next)`: the last entry. -/
def lastNodeFrom : ℕ → ℕ → NodeM ℕ
  | 0, _ => throw .endless
  | fuel + 1, it => do
    match (← loadNode it).next with
    | none => pure it
    | some next => lastNodeFrom fuel next

/-- A new entry is linked to the end of a list. -/
def linkNode (fuel : ℕ) (first : Option ℕ) (header : ℕ) : NodeM (Option ℕ) :=
  match first with
  | none => pure (some header)
  | some it => do
    let last ← lastNodeFrom fuel it
    let node ← loadNode last
    save last (.header { node with next := some header })
    pure first

/-- `redhttp_headers_add`, which returns `*first`. -/
def redhttpHeadersAddNode (fuel : ℕ) (first : Option ℕ) (key : CString) (value : Option CString) :
    NodeM (Option ℕ) := do
  -- assert(strlen(key) > 0)
  if key.strlen = 0 then throw (.fault .assertion)
  else
    let header ← malloc (.header {})
    let keyAt ← redhttpStrdup key
    save header (.header { key := some keyAt })
    let valueAt ← strdupValue value
    save header (.header { key := some keyAt, value := valueAt })
    linkNode fuel first header

/-- The loop of `redhttp_headers_set`: whether the key was there. -/
def headersSetFrom (key : CString) (value : Option CString) : ℕ → Option ℕ → NodeM Bool
  | _, none => pure false
  | 0, some _ => throw .endless
  | fuel + 1, some it => do
    let node ← loadNode it
    if sameKey key (← loadString node.key) then
      freePointer node.value
      let valueAt ← strdupValue value
      save it (.header { node with value := valueAt })
      pure true
    else headersSetFrom key value fuel node.next

/-- `redhttp_headers_set`. -/
def redhttpHeadersSetNode (fuel : ℕ) (first : Option ℕ) (key : CString) (value : Option CString) :
    NodeM (Option ℕ) := do
  if ← headersSetFrom key value fuel first then pure first
  else redhttpHeadersAddNode fuel first key value

/-- `redhttp_headers_get`. -/
def redhttpHeadersGetNode (key : CString) : ℕ → Option ℕ → NodeM (Option ℕ)
  | _, none => pure none
  | 0, some _ => throw .endless
  | fuel + 1, some it => do
    let node ← loadNode it
    if sameKey key (← loadString node.key) then pure node.value
    else redhttpHeadersGetNode key fuel node.next

/-- `redhttp_headers_exists`. -/
def redhttpHeadersExistsNode (key : CString) : ℕ → Option ℕ → NodeM Bool
  | _, none => pure false
  | 0, some _ => throw .endless
  | fuel + 1, some it => do
    let node ← loadNode it
    if sameKey key (← loadString node.key) then pure true
    else redhttpHeadersExistsNode key fuel node.next

/-- The loop of `redhttp_headers_count`. -/
def redhttpHeadersCountNode : ℕ → Option ℕ → ℕ → NodeM ℕ
  | _, none, count => pure count
  | 0, some _, _ => throw .endless
  | fuel + 1, some it, count => do
    let node ← loadNode it
    redhttpHeadersCountNode fuel node.next (count + 1)

/-- The loop of `redhttp_headers_get_index`: a pointer to the key and one to the value. -/
def redhttpHeadersGetIndexNode (index : ℕ) :
    ℕ → Option ℕ → ℕ → NodeM (Option (Option ℕ × Option ℕ))
  | _, none, _ => pure none
  | 0, some _, _ => throw .endless
  | fuel + 1, some it, i => do
    let node ← loadNode it
    if index = i then pure (some (node.key, node.value))
    else redhttpHeadersGetIndexNode index fuel node.next (i + 1)

/-- `redhttp_headers_parse_line`, which works on a copy of the line. -/
def redhttpHeadersParseLineNode (fuel : ℕ) (first : Option ℕ) (input : CString) :
    NodeM (Option ℕ) := do
  if input.strlen < 1 then pure first
  else
    let line ← redhttpStrdup input
    let key := input.bytes.takeWhile (· != ch ':')
    match input.bytes.dropWhile (· != ch ':') with
    | [] =>
      free line
      pure first
    | _ :: ptr =>
      let value := ptr.dropWhile isspace
      let first ←
        if value = [] then pure first
        else redhttpHeadersAddNode fuel first (CString.ofBytes key) (some (CString.ofBytes value))
      free line
      pure first

/-- `redhttp_headers_free`. -/
def redhttpHeadersFreeNodes : ℕ → Option ℕ → NodeM Unit
  | _, none => pure ()
  | 0, some _ => throw .endless
  | fuel + 1, some it => do
    let node ← loadNode it
    freePointer node.key
    freePointer node.value
    free it
    redhttpHeadersFreeNodes fuel node.next

/-! ### A list and its blocks -/

/-- An entry of a list, and where its blocks are. -/
structure PlacedHeader where
  node : ℕ
  keyAt : ℕ
  key : CString
  value : Option (ℕ × CString)

/-- The entry as it is known elsewhere. -/
def PlacedHeader.header (p : PlacedHeader) : Header := ⟨p.key, p.value.map Prod.snd⟩

@[simp] lemma PlacedHeader.header_key (p : PlacedHeader) : p.header.key = p.key := rfl

/-- The block of an entry in front of `next`. -/
def PlacedHeader.block (p : PlacedHeader) (next : Option ℕ) : Cell :=
  .header { key := some p.keyAt, value := p.value.map Prod.fst, next }

/-- The block of a value, if there is one. -/
def valueCells (value : Option (ℕ × CString)) : List (ℕ × Cell) :=
  (value.map fun v => (v.1, Cell.string v.2)).toList

/-- The blocks of the strings of an entry. -/
def PlacedHeader.strings (p : PlacedHeader) : List (ℕ × Cell) :=
  (p.keyAt, .string p.key) :: valueCells p.value

/-- The first of some entries in front of `next`. -/
def firstOf (ps : List PlacedHeader) (next : Option ℕ) : Option ℕ :=
  (ps.head?.map PlacedHeader.node).or next

/-- The blocks of some entries in front of `next`. -/
def blocksOf : List PlacedHeader → Option ℕ → List (ℕ × Cell)
  | [], _ => []
  | p :: ps, next => (p.node, p.block (firstOf ps next)) :: (p.strings ++ blocksOf ps next)

section Blocks

variable {m : Memory Cell} {rest : ℕ → Option Cell} {p q : PlacedHeader}
  {ps qs : List PlacedHeader} {next : Option ℕ} {more : List (ℕ × Cell)} {fuel : ℕ}
  {key : CString} {value : Option CString}

lemma firstOf_append : firstOf (ps ++ qs) next = firstOf ps (firstOf qs next) := by
  cases ps <;> simp [firstOf]

lemma blocksOf_append :
    blocksOf (ps ++ qs) next = blocksOf ps (firstOf qs next) ++ blocksOf qs next := by
  induction ps with
  | nil => rfl
  | cons p ps ih => simp [blocksOf, ih, firstOf_append]

/-- The block of an entry among those of its list. -/
lemma blocksOf_perm (ps : List PlacedHeader) (p : PlacedHeader) (qs : List PlacedHeader)
    (next : Option ℕ) :
    (blocksOf (ps ++ p :: qs) next).Perm ((p.node, p.block (firstOf qs next)) ::
      (p.strings ++ (blocksOf ps (some p.node) ++ blocksOf qs next))) := by
  have hfirst : firstOf (p :: qs) next = some p.node := rfl
  rw [blocksOf_append, hfirst, blocksOf]
  refine List.perm_middle.trans (List.Perm.cons _ ?_)
  rw [← List.append_assoc, ← List.append_assoc]
  exact List.Perm.append_right _ List.perm_append_comm

/-! ### Reading -/

/-- Some blocks are in memory. -/
def InMemory (m : Memory Cell) (cells : List (ℕ × Cell)) : Prop :=
  ∀ cell ∈ cells, m.block cell.1 = some cell.2

lemma inMemory_blocksOf_cons : InMemory m (blocksOf (p :: ps) next) ↔
    m.block p.node = some (p.block (firstOf ps next)) ∧
      m.block p.keyAt = some (.string p.key) ∧
      InMemory m (valueCells p.value) ∧ InMemory m (blocksOf ps next) := by
  simp only [InMemory, blocksOf, PlacedHeader.strings, List.cons_append, List.forall_mem_cons,
    List.forall_mem_append]

lemma loadNode_of_block (h : m.block p.node = some (p.block next)) :
    loadNode p.node m = .ok ⟨some p.keyAt, p.value.map Prod.fst, next⟩ m := by
  have hload : load p.node m = .ok (p.block next) m := by rw [load, h]
  rw [loadNode, bind_of_ok hload]
  rfl

lemma loadString_of_block {a : ℕ} {s : CString} (h : m.block a = some (.string s)) :
    loadString (some a) m = .ok s m := by
  have hload : load a m = .ok (.string s) m := by rw [load, h]
  rw [loadString, bind_of_ok hload]
  rfl

/-- The walk to the last entry. -/
lemma lastNodeFrom_eq {last : PlacedHeader} {it : ℕ}
    (h : InMemory m (blocksOf (ps ++ [last]) none)) (hfuel : ps.length < fuel)
    (hit : firstOf (ps ++ [last]) none = some it) :
    lastNodeFrom fuel it m = .ok last.node m := by
  induction ps generalizing fuel it with
  | nil =>
    obtain ⟨fuel, rfl⟩ := Nat.exists_eq_succ_of_ne_zero (Nat.ne_of_gt hfuel)
    obtain rfl := Option.some.inj hit
    obtain ⟨hnode, -⟩ := inMemory_blocksOf_cons.mp h
    rw [lastNodeFrom, bind_of_ok (loadNode_of_block hnode)]
    rfl
  | cons p ps ih =>
    obtain ⟨fuel, rfl⟩ := Nat.exists_eq_succ_of_ne_zero (Nat.ne_zero_of_lt hfuel)
    obtain rfl := Option.some.inj hit
    rw [List.cons_append] at h
    obtain ⟨hnode, -, -, hrest⟩ := inMemory_blocksOf_cons.mp h
    obtain ⟨next, hnext⟩ : ∃ next, firstOf (ps ++ [last]) none = some next := by
      cases ps with
      | nil => exact ⟨last.node, rfl⟩
      | cons p' ps => exact ⟨p'.node, rfl⟩
    rw [lastNodeFrom, bind_of_ok (loadNode_of_block hnode)]
    simp only [hnext]
    exact ih hrest (Nat.lt_of_succ_lt_succ hfuel) hnext

/-- The first entry with a key. -/
def findPlaced (key : CString) (ps : List PlacedHeader) : Option PlacedHeader :=
  ps.find? fun p => sameKey key p.key

/-- What is found in memory is where the value of the key is. -/
lemma redhttpHeadersGetNode_eq (h : InMemory m (blocksOf ps none)) (hfuel : ps.length ≤ fuel) :
    redhttpHeadersGetNode key fuel (firstOf ps none) m =
      .ok ((findPlaced key ps).bind fun p => p.value.map Prod.fst) m := by
  induction ps generalizing fuel with
  | nil => cases fuel <;> rfl
  | cons p ps ih =>
    obtain ⟨fuel, rfl⟩ := Nat.exists_eq_succ_of_ne_zero (Nat.ne_zero_of_lt hfuel)
    obtain ⟨hnode, hkey, -, hrest⟩ := inMemory_blocksOf_cons.mp h
    have hfirst : firstOf (p :: ps) none = some p.node := rfl
    rw [hfirst, redhttpHeadersGetNode, bind_of_ok (loadNode_of_block hnode)]
    dsimp only
    rw [bind_of_ok (loadString_of_block hkey)]
    by_cases hsame : sameKey key p.key = true
    · simp [findPlaced, hsame]
    · rw [if_neg hsame, ih hrest (Nat.le_of_succ_le_succ hfuel)]
      simp [findPlaced, hsame]

/-- And the list has the value itself. -/
lemma redhttpHeadersGet_placed (key : CString) (ps : List PlacedHeader) :
    redhttpHeadersGet (ps.map PlacedHeader.header) key =
      (findPlaced key ps).bind fun p => p.value.map Prod.snd := by
  induction ps with
  | nil => rfl
  | cons p ps ih =>
    rw [List.map_cons, redhttpHeadersGet, ih]
    by_cases hsame : sameKey key p.key = true
    · simp [findPlaced, PlacedHeader.header, hsame]
    · simp [findPlaced, PlacedHeader.header, hsame]

/-- The string behind a pointer, which may be NULL. -/
def readPointer : Option ℕ → NodeM (Option CString)
  | none => pure none
  | some p => some <$> loadString (some p)

/-- The two strings of an entry. -/
def readEntry : Option (Option ℕ × Option ℕ) → NodeM (Option (CString × Option CString))
  | none => pure none
  | some (key, value) => do
    let k ← loadString key
    let v ← readPointer value
    pure (some (k, v))

/-- Each function that reads a list finds in memory what the list has. -/
structure ReadsAs (fuel : ℕ) (headers : List Header) (first : Option ℕ)
    (m : Memory Cell) : Prop where
  get : ∀ key, ∃ value, redhttpHeadersGetNode key fuel first m = .ok value m ∧
    readPointer value m = .ok (redhttpHeadersGet headers key) m
  exists_key : ∀ key,
    redhttpHeadersExistsNode key fuel first m = .ok (redhttpHeadersExists headers key) m
  count : redhttpHeadersCountNode fuel first 0 m = .ok (redhttpHeadersCount headers) m
  index : ∀ i, ∃ entry, redhttpHeadersGetIndexNode i fuel first 0 m = .ok entry m ∧
    readEntry entry m = .ok (redhttpHeadersGetIndex headers i) m

lemma readPointer_value {v : Option (ℕ × CString)} (h : InMemory m (valueCells v)) :
    readPointer (v.map Prod.fst) m = .ok (v.map Prod.snd) m := by
  cases v with
  | none => rfl
  | some v =>
    have hblock := h (v.1, .string v.2) (by simp [valueCells])
    exact map_some_eq_ok_iff.mpr (loadString_of_block hblock)

lemma inMemory_value (h : InMemory m (blocksOf ps none)) (hp : p ∈ ps) :
    InMemory m (valueCells p.value) := by
  induction ps with
  | nil => cases hp
  | cons p' ps ih =>
    obtain ⟨-, -, hvalue, hrest⟩ := inMemory_blocksOf_cons.mp h
    rcases List.mem_cons.mp hp with rfl | hp
    · exact hvalue
    · exact ih hrest hp

lemma redhttpHeadersExistsNode_eq (h : InMemory m (blocksOf ps none)) (hfuel : ps.length ≤ fuel) :
    redhttpHeadersExistsNode key fuel (firstOf ps none) m =
      .ok (redhttpHeadersExists (ps.map PlacedHeader.header) key) m := by
  induction ps generalizing fuel with
  | nil => cases fuel <;> rfl
  | cons p ps ih =>
    obtain ⟨fuel, rfl⟩ := Nat.exists_eq_succ_of_ne_zero (Nat.ne_zero_of_lt hfuel)
    obtain ⟨hnode, hkey, -, hrest⟩ := inMemory_blocksOf_cons.mp h
    have hfirst : firstOf (p :: ps) none = some p.node := rfl
    rw [hfirst, redhttpHeadersExistsNode, bind_of_ok (loadNode_of_block hnode)]
    dsimp only
    rw [bind_of_ok (loadString_of_block hkey)]
    by_cases hsame : sameKey key p.key = true
    · simp [redhttpHeadersExists, hsame]
    · rw [if_neg hsame, ih hrest (Nat.le_of_succ_le_succ hfuel)]
      simp [redhttpHeadersExists, hsame]

lemma redhttpHeadersCountNode_eq (h : InMemory m (blocksOf ps none)) (hfuel : ps.length ≤ fuel)
    (count : ℕ) :
    redhttpHeadersCountNode fuel (firstOf ps none) count m = .ok (count + ps.length) m := by
  induction ps generalizing fuel count with
  | nil => cases fuel <;> rfl
  | cons p ps ih =>
    obtain ⟨fuel, rfl⟩ := Nat.exists_eq_succ_of_ne_zero (Nat.ne_zero_of_lt hfuel)
    obtain ⟨hnode, -, -, hrest⟩ := inMemory_blocksOf_cons.mp h
    have hfirst : firstOf (p :: ps) none = some p.node := rfl
    rw [hfirst, redhttpHeadersCountNode, bind_of_ok (loadNode_of_block hnode)]
    dsimp only
    rw [ih hrest (Nat.le_of_succ_le_succ hfuel), List.length_cons, Nat.add_right_comm,
      Nat.add_assoc]

/-- The entry with an index, if there are so many. -/
lemma redhttpHeadersGetIndexNode_eq (h : InMemory m (blocksOf ps none))
    (hfuel : ps.length ≤ fuel) {index i : ℕ} (hi : i ≤ index) :
    ∃ entry, redhttpHeadersGetIndexNode index fuel (firstOf ps none) i m = .ok entry m ∧
      readEntry entry m =
        .ok (redhttpHeadersGetIndex (ps.map PlacedHeader.header) (index - i)) m := by
  induction ps generalizing fuel i with
  | nil => exact ⟨none, by cases fuel <;> rfl, rfl⟩
  | cons p ps ih =>
    obtain ⟨fuel, rfl⟩ := Nat.exists_eq_succ_of_ne_zero (Nat.ne_zero_of_lt hfuel)
    obtain ⟨hnode, hkey, hvalue, hrest⟩ := inMemory_blocksOf_cons.mp h
    have hfirst : firstOf (p :: ps) none = some p.node := rfl
    rw [hfirst, redhttpHeadersGetIndexNode, bind_of_ok (loadNode_of_block hnode)]
    dsimp only
    by_cases hindex : index = i
    · refine ⟨_, by rw [if_pos hindex]; rfl, ?_⟩
      rw [readEntry, bind_of_ok (loadString_of_block hkey), bind_of_ok (readPointer_value hvalue),
        hindex, Nat.sub_self]
      rfl
    · have hpred : index - i = index - (i + 1) + 1 := by omega
      obtain ⟨entry, hentry, hread⟩ :=
        ih hrest (Nat.le_of_succ_le_succ hfuel) (by omega : i + 1 ≤ index)
      refine ⟨entry, by rw [if_neg hindex]; exact hentry, ?_⟩
      rw [hread, hpred]
      rfl

/-- A list whose blocks are in memory is read as it is. -/
lemma readsAs_of_inMemory (h : InMemory m (blocksOf ps none)) (hfuel : ps.length ≤ fuel) :
    ReadsAs fuel (ps.map PlacedHeader.header) (firstOf ps none) m := by
  refine ⟨fun key => ⟨_, redhttpHeadersGetNode_eq h hfuel, ?_⟩,
    fun key => redhttpHeadersExistsNode_eq h hfuel, ?_, ?_⟩
  · rw [redhttpHeadersGet_placed]
    cases hfind : findPlaced key ps with
    | none => rfl
    | some p => exact readPointer_value (inMemory_value h (List.mem_of_find?_eq_some hfind))
  · rw [redhttpHeadersCountNode_eq h hfuel, redhttpHeadersCount, List.length_map, Nat.zero_add]
  · exact fun i => redhttpHeadersGetIndexNode_eq h hfuel (Nat.zero_le i)

/-! ### Values -/

/-- The copy of a value is one more block, if there is a copy. -/
lemma strdupValue_eq (h : Holding m rest more) (value : Option CString) :
    ∃ copy m', strdupValue value m = .ok (copy.map Prod.fst) m' ∧
      copy.map Prod.snd = storedValue value ∧ Holding m' rest (valueCells copy ++ more) := by
  cases value with
  | none => exact ⟨none, m, rfl, rfl, h⟩
  | some v =>
    rw [strdupValue]
    by_cases hv : v.strlen = 0
    · refine ⟨none, m, by rw [if_pos hv]; rfl, ?_, h⟩
      simp [storedValue, Option.filter, hv]
    · obtain ⟨hrun, hmore⟩ := h.malloc (.string v)
      refine ⟨some (m.fresh, v), _, ?_, (storedValue_of_ne hv).symm, hmore⟩
      rw [if_neg hv, redhttpStrdup]
      exact map_eq_ok_iff.mpr ⟨_, hrun, rfl⟩

/-- The value of an entry is freed, if there is one. -/
lemma freePointer_value {v : Option (ℕ × CString)} (h : Holding m rest (valueCells v ++ more)) :
    ∃ m', freePointer (v.map Prod.fst) m = .ok () m' ∧ Holding m' rest more := by
  cases v with
  | none => exact ⟨m, rfl, h⟩
  | some v => exact ⟨_, Holding.free h⟩

/-! ### Adding -/

/-- An entry behind the last one is linked to it. -/
lemma linkNode_eq (h : Holding m rest ((q.node, q.block none) ::
      (q.strings ++ (blocksOf ps none ++ more)))) (hfuel : ps.length ≤ fuel) :
    ∃ m', linkNode fuel (firstOf ps none) q.node m = .ok (firstOf (ps ++ [q]) none) m' ∧
      Holding m' rest (blocksOf (ps ++ [q]) none ++ more) := by
  rcases List.eq_nil_or_concat' ps with rfl | ⟨front, last, rfl⟩
  · refine ⟨m, rfl, h.perm ?_⟩
    simp [blocksOf, firstOf]
  · set others := (q.node, q.block none) ::
      (q.strings ++ (last.strings ++ (blocksOf front (some last.node) ++ more))) with hothers
    have hbefore : (blocksOf (front ++ [last]) none).Perm ((last.node, last.block none) ::
        (last.strings ++ (blocksOf front (some last.node) ++ []))) :=
      blocksOf_perm front last [] none
    have hafter : (blocksOf (front ++ [last, q]) none).Perm ((last.node,
        last.block (some q.node)) :: (last.strings ++ (blocksOf front (some last.node) ++
          (q.node, q.block none) :: (q.strings ++ [])))) :=
      blocksOf_perm front last [q] none
    have hlast : Holding m rest ((last.node, last.block none) :: others) := by
      refine h.perm ?_
      refine (((hbefore.append_right more).append_left q.strings).cons _).trans ?_
      rw [← Multiset.coe_eq_coe]
      simp only [hothers, List.append_nil, ← Multiset.coe_add, ← Multiset.cons_coe,
        ← Multiset.singleton_add]
      abel
    have hmem : InMemory m (blocksOf (front ++ [last]) none) :=
      fun cell hcell => h.holds cell (by simp [hcell])
    obtain ⟨it, hit⟩ : ∃ it, firstOf (front ++ [last]) none = some it := by
      cases front with
      | nil => exact ⟨last.node, rfl⟩
      | cons p front => exact ⟨p.node, rfl⟩
    have hwalk : lastNodeFrom fuel it m = .ok last.node m :=
      lastNodeFrom_eq hmem (by simpa [Nat.succ_le_iff] using hfuel) hit
    have hnode := loadNode_of_block (hlast.holds _ List.mem_cons_self)
    obtain ⟨hsave, hlinked⟩ := hlast.save (last.block (some q.node))
    refine ⟨_, ?_, hlinked.perm ?_⟩
    · rw [hit, linkNode, bind_of_ok hwalk, bind_of_ok hnode]
      refine (bind_of_ok hsave _).trans ?_
      rw [List.append_assoc, firstOf_append, ← hit, firstOf_append]
      cases front <;> rfl
    · rw [List.append_assoc]
      refine List.Perm.trans ?_ (hafter.append_right more).symm
      rw [← Multiset.coe_eq_coe]
      simp only [hothers, List.append_nil, ← Multiset.coe_add, ← Multiset.cons_coe,
        ← Multiset.singleton_add]
      abel

/-- A new entry stands behind the others. -/
lemma redhttpHeadersAddNode_eq (value : Option CString)
    (h : Holding m rest (blocksOf ps none ++ more))
    (hkey : key.strlen ≠ 0) (hfuel : ps.length ≤ fuel) :
    ∃ q m', redhttpHeadersAddNode fuel (firstOf ps none) key value m =
        .ok (firstOf (ps ++ [q]) none) m' ∧ q.header = ⟨key, storedValue value⟩ ∧
      Holding m' rest (blocksOf (ps ++ [q]) none ++ more) := by
  obtain ⟨hheader, h₁⟩ := h.malloc (.header {})
  obtain ⟨hkeyAt, h₂⟩ := h₁.malloc (.string key)
  set header := m.fresh
  set keyAt := (m.grow (.header {})).fresh
  obtain ⟨hsave, h₃⟩ := (h₂.perm (List.Perm.swap _ _ _)).save (.header { key := some keyAt })
  obtain ⟨copy, m₄, hcopy, hvalue, h₄⟩ := strdupValue_eq h₃ value
  set q : PlacedHeader := ⟨header, keyAt, key, copy⟩ with hq
  obtain ⟨hsave', h₅⟩ := (h₄.perm List.perm_middle).save (q.block none)
  have hplaced : Holding (m₄.put header (q.block none)) rest ((q.node, q.block none) ::
      (q.strings ++ (blocksOf ps none ++ more))) := by
    refine h₅.perm (List.Perm.cons _ ?_)
    exact List.perm_middle
  obtain ⟨m', hlink, hlinked⟩ := linkNode_eq hplaced hfuel
  refine ⟨q, m', ?_, ?_, hlinked⟩
  · rw [redhttpHeadersAddNode, if_neg hkey, bind_of_ok hheader, redhttpStrdup, bind_of_ok hkeyAt,
      bind_of_ok hsave, bind_of_ok hcopy]
    exact (bind_of_ok hsave' _).trans hlink
  · rw [← hvalue]
    rfl

/-! ### Runs -/

/-- A run in memory ends as the one on lists does: with the blocks of the list, or with the same
fault. -/
def EndsAs (rest : ℕ → Option Cell) (more : List (ℕ × Cell)) :
    Except Fault (List Header) → EStateM.Result Stuck (Memory Cell) (Option ℕ) → Prop
  | .ok headers, result => ∃ ps m', result = .ok (firstOf ps none) m' ∧
      ps.map PlacedHeader.header = headers ∧ Holding m' rest (blocksOf ps none ++ more)
  | .error fault, result => ∃ m', result = .error (.fault fault) m'

lemma endsAs_add (key : CString) (value : Option CString)
    (h : Holding m rest (blocksOf ps none ++ more)) (hfuel : ps.length ≤ fuel) :
    EndsAs rest more (redhttpHeadersAdd (ps.map PlacedHeader.header) key value)
      (redhttpHeadersAddNode fuel (firstOf ps none) key value m) := by
  by_cases hkey : key.strlen = 0
  · rw [redhttpHeadersAdd, if_pos hkey, redhttpHeadersAddNode, if_pos hkey]
    exact ⟨m, rfl⟩
  · obtain ⟨q, m', hrun, hq, h'⟩ := redhttpHeadersAddNode_eq value h hkey hfuel
    rw [redhttpHeadersAdd_of_ne hkey]
    exact ⟨ps ++ [q], m', hrun, by simp [hq], h'⟩

/-- The walk of `redhttp_headers_set` past entries with other keys. -/
lemma headersSetFrom_of_none (h : InMemory m (blocksOf ps none)) (hfuel : ps.length ≤ fuel)
    (hnone : redhttpHeadersSet.replace key value (ps.map PlacedHeader.header) = none) :
    headersSetFrom key value fuel (firstOf ps none) m = .ok false m := by
  induction ps generalizing fuel with
  | nil => cases fuel <;> rfl
  | cons p ps ih =>
    obtain ⟨fuel, rfl⟩ := Nat.exists_eq_succ_of_ne_zero (Nat.ne_zero_of_lt hfuel)
    obtain ⟨hnode, hkey, -, hrest⟩ := inMemory_blocksOf_cons.mp h
    have hfirst : firstOf (p :: ps) none = some p.node := rfl
    rw [List.map_cons, redhttpHeadersSet.replace, PlacedHeader.header_key] at hnone
    rw [hfirst, headersSetFrom, bind_of_ok (loadNode_of_block hnode)]
    dsimp only
    rw [bind_of_ok (loadString_of_block hkey)]
    by_cases hsame : sameKey key p.key = true
    · rw [if_pos hsame] at hnone
      cases hnone
    · rw [if_neg hsame] at hnone ⊢
      exact ih hrest (Nat.le_of_succ_le_succ hfuel) (Option.map_eq_none_iff.mp hnone)

/-- What it does to the entry with the key. -/
lemma headersSetFrom_of_some {headers : List Header}
    (h : Holding m rest (blocksOf ps none ++ more)) (hfuel : ps.length ≤ fuel)
    (hsome : redhttpHeadersSet.replace key value (ps.map PlacedHeader.header) = some headers) :
    ∃ ps' m', headersSetFrom key value fuel (firstOf ps none) m = .ok true m' ∧
      firstOf ps' none = firstOf ps none ∧ ps'.map PlacedHeader.header = headers ∧
      Holding m' rest (blocksOf ps' none ++ more) := by
  induction ps generalizing fuel more headers with
  | nil => cases hsome
  | cons p ps ih =>
    obtain ⟨fuel, rfl⟩ := Nat.exists_eq_succ_of_ne_zero (Nat.ne_zero_of_lt hfuel)
    have hmem : InMemory m (blocksOf (p :: ps) none) :=
      fun cell hcell => h.holds cell (List.mem_append_left _ hcell)
    obtain ⟨hnode, hkey, -, -⟩ := inMemory_blocksOf_cons.mp hmem
    have hfirst : firstOf (p :: ps) none = some p.node := rfl
    rw [List.map_cons, redhttpHeadersSet.replace, PlacedHeader.header_key] at hsome
    rw [hfirst, headersSetFrom, bind_of_ok (loadNode_of_block hnode)]
    dsimp only
    rw [bind_of_ok (loadString_of_block hkey)]
    by_cases hsame : sameKey key p.key = true
    · rw [if_pos hsame] at hsome ⊢
      -- The old value goes, the copy of the new one takes its place.
      set others := (p.keyAt, Cell.string p.key) :: (blocksOf ps none ++ more) with hothers
      have hvalue : Holding m rest (valueCells p.value ++
          ((p.node, p.block (firstOf ps none)) :: others)) := by
        refine h.perm ?_
        rw [← Multiset.coe_eq_coe]
        simp only [blocksOf, PlacedHeader.strings, List.cons_append, hothers, ← Multiset.coe_add,
          ← Multiset.cons_coe, ← Multiset.singleton_add]
        abel
      obtain ⟨m₁, hfree, h₁⟩ := freePointer_value hvalue
      obtain ⟨copy, m₂, hcopy, hstored, h₂⟩ := strdupValue_eq h₁ value
      set p' : PlacedHeader := { p with value := copy } with hp'
      obtain ⟨hsave, h₃⟩ := (h₂.perm List.perm_middle).save (p'.block (firstOf ps none))
      refine ⟨p' :: ps, _, ?_, rfl, ?_, h₃.perm ?_⟩
      · rw [bind_of_ok hfree, bind_of_ok hcopy]
        exact bind_of_ok hsave _
      · obtain rfl := Option.some.inj hsome
        rw [List.map_cons, ← hstored]
        rfl
      · rw [← Multiset.coe_eq_coe]
        simp only [blocksOf, PlacedHeader.strings, List.cons_append, hothers, hp',
          ← Multiset.coe_add, ← Multiset.cons_coe, ← Multiset.singleton_add]
        abel
    · rw [if_neg hsame] at hsome ⊢
      obtain ⟨rest', hrest', rfl⟩ := Option.map_eq_some_iff.mp hsome
      have hbehind : Holding m rest (blocksOf ps none ++
          ((p.node, p.block (firstOf ps none)) :: (p.strings ++ more))) := by
        refine h.perm ?_
        rw [← Multiset.coe_eq_coe]
        simp only [blocksOf, List.cons_append, ← Multiset.coe_add, ← Multiset.cons_coe,
          ← Multiset.singleton_add]
        abel
      obtain ⟨ps', m', hrun, hsamefirst, hmap, h'⟩ :=
        ih hbehind (Nat.le_of_succ_le_succ hfuel) hrest'
      refine ⟨p :: ps', m', hrun, rfl, by rw [List.map_cons, hmap], h'.perm ?_⟩
      rw [← Multiset.coe_eq_coe]
      simp only [blocksOf, List.cons_append, hsamefirst, ← Multiset.coe_add, ← Multiset.cons_coe,
        ← Multiset.singleton_add]
      abel

lemma endsAs_set (h : Holding m rest (blocksOf ps none ++ more)) (hfuel : ps.length ≤ fuel) :
    EndsAs rest more (redhttpHeadersSet (ps.map PlacedHeader.header) key value)
      (redhttpHeadersSetNode fuel (firstOf ps none) key value m) := by
  have hmem : InMemory m (blocksOf ps none) :=
    fun cell hcell => h.holds cell (List.mem_append_left _ hcell)
  rw [redhttpHeadersSet, redhttpHeadersSetNode]
  cases hreplace : redhttpHeadersSet.replace key value (ps.map PlacedHeader.header) with
  | none =>
    rw [bind_of_ok (headersSetFrom_of_none hmem hfuel hreplace)]
    exact endsAs_add key value h hfuel
  | some headers =>
    obtain ⟨ps', m', hrun, hfirst, hmap, h'⟩ := headersSetFrom_of_some h hfuel hreplace
    rw [bind_of_ok hrun]
    exact ⟨ps', m', by rw [hfirst]; rfl, hmap, h'⟩

lemma endsAs_parseLine {line : CString} (h : Holding m rest (blocksOf ps none ++ more))
    (hfuel : ps.length ≤ fuel) :
    EndsAs rest more (redhttpHeadersParseLine (ps.map PlacedHeader.header) line)
      (redhttpHeadersParseLineNode fuel (firstOf ps none) line m) := by
  rw [redhttpHeadersParseLine, redhttpHeadersParseLineNode]
  by_cases hempty : line.strlen < 1
  · have hbytes : line.bytes = [] := List.length_eq_zero_iff.mp (Nat.lt_one_iff.mp hempty)
    rw [if_pos hempty]
    simp only [hbytes, List.dropWhile_nil]
    exact ⟨ps, m, rfl, rfl, h⟩
  · rw [if_neg hempty]
    obtain ⟨hcopy, h₁⟩ := h.malloc (.string line)
    -- The copy of the line is freed, whatever is found in it.
    have hdone : ∀ {ps' : List PlacedHeader} {m' : Memory Cell},
        Holding m' rest (blocksOf ps' none ++ ((m.fresh, .string line) :: more)) →
          EndsAs rest more (.ok (ps'.map PlacedHeader.header))
            ((do free m.fresh; pure (firstOf ps' none) : NodeM (Option ℕ)) m') := by
      intro ps' m' h'
      obtain ⟨hfree, hrest⟩ := (h'.perm List.perm_middle).free
      exact ⟨ps', _, bind_of_ok hfree _, rfl, hrest⟩
    have hbehind := h₁.perm List.perm_middle.symm
    rw [redhttpStrdup, bind_of_ok hcopy]
    dsimp only
    cases hrest : line.bytes.dropWhile (· != ch ':') with
    | nil => exact hdone hbehind
    | cons c ptr =>
      dsimp only
      by_cases hvalue : ptr.dropWhile isspace = []
      · rw [if_pos hvalue, if_pos hvalue]
        exact hdone hbehind
      · rw [if_neg hvalue, if_neg hvalue]
        have hadd := endsAs_add (CString.ofBytes (line.bytes.takeWhile (· != ch ':')))
          (some (CString.ofBytes (ptr.dropWhile isspace))) hbehind hfuel
        cases hresult : redhttpHeadersAdd (ps.map PlacedHeader.header)
            (CString.ofBytes (line.bytes.takeWhile (· != ch ':')))
            (some (CString.ofBytes (ptr.dropWhile isspace))) with
        | error fault =>
          rw [hresult] at hadd
          obtain ⟨m', hm'⟩ := hadd
          exact ⟨m', bind_of_error hm' _⟩
        | ok headers =>
          rw [hresult] at hadd
          obtain ⟨ps', m', hm', rfl, h'⟩ := hadd
          rw [bind_of_ok hm']
          exact hdone h'

/-- The list is freed, every block of it. -/
lemma redhttpHeadersFreeNodes_eq (h : Holding m rest (blocksOf ps none ++ more))
    (hfuel : ps.length ≤ fuel) :
    ∃ m', redhttpHeadersFreeNodes fuel (firstOf ps none) m = .ok () m' ∧
      Holding m' rest more := by
  induction ps generalizing fuel m with
  | nil => exact ⟨m, by cases fuel <;> rfl, h⟩
  | cons p ps ih =>
    obtain ⟨fuel, rfl⟩ := Nat.exists_eq_succ_of_ne_zero (Nat.ne_zero_of_lt hfuel)
    have hfirst : firstOf (p :: ps) none = some p.node := rfl
    have hnode := loadNode_of_block (h.holds _ List.mem_cons_self)
    have hkey : Holding m rest ((p.keyAt, .string p.key) :: (valueCells p.value ++
        ((p.node, p.block (firstOf ps none)) :: (blocksOf ps none ++ more)))) := by
      refine h.perm ?_
      rw [← Multiset.coe_eq_coe]
      simp only [blocksOf, PlacedHeader.strings, List.cons_append, ← Multiset.coe_add,
        ← Multiset.cons_coe, ← Multiset.singleton_add]
      abel
    have hfree : freePointer (some p.keyAt) m = .ok () (m.drop p.keyAt) := hkey.free.1
    have h₁ := hkey.free.2
    obtain ⟨m₂, hfree₂, h₂⟩ := freePointer_value h₁
    obtain ⟨hfree₃, h₃⟩ := h₂.free
    obtain ⟨m', hrun, h'⟩ := ih h₃ (Nat.le_of_succ_le_succ hfuel)
    refine ⟨m', ?_, h'⟩
    rw [hfirst, redhttpHeadersFreeNodes, bind_of_ok hnode]
    dsimp only
    rw [bind_of_ok hfree, bind_of_ok hfree₂, bind_of_ok hfree₃]
    exact hrun

/-- What a call does in memory. -/
def HeaderCall.applyNode (first : Option ℕ) (call : HeaderCall) : NodeM (Option ℕ) := do
  let fuel ← walkBound
  match call with
  | .add key value => redhttpHeadersAddNode fuel first key value
  | .set key value => redhttpHeadersSetNode fuel first key value
  | .parseLine line => redhttpHeadersParseLineNode fuel first line

/-- Some calls in memory, one after the other, on a list that is empty. -/
def HeaderCall.runNode (calls : List HeaderCall) : NodeM (Option ℕ) :=
  calls.foldlM HeaderCall.applyNode none

lemma length_le_blocksOf (ps : List PlacedHeader) (next : Option ℕ) :
    ps.length ≤ (blocksOf ps next).length := by
  induction ps with
  | nil => exact le_rfl
  | cons p ps ih =>
    rw [blocksOf, List.length_cons, List.length_cons, List.length_append]
    omega

/-- A walk through a list is short enough. -/
lemma length_le_fresh (h : Holding m rest (blocksOf ps none ++ more)) : ps.length ≤ m.fresh := by
  have hblocks := length_le_blocksOf ps none
  have hcells := h.length_le
  rw [List.length_append] at hcells
  omega

lemma endsAs_apply (h : Holding m rest (blocksOf ps none ++ more)) (call : HeaderCall) :
    EndsAs rest more (call.apply (ps.map PlacedHeader.header))
      (call.applyNode (firstOf ps none) m) := by
  have hbound : walkBound m = .ok m.fresh m := rfl
  rw [HeaderCall.applyNode, bind_of_ok hbound]
  cases call with
  | add key value => exact endsAs_add key value h (length_le_fresh h)
  | set key value => exact endsAs_set h (length_le_fresh h)
  | parseLine line => exact endsAs_parseLine h (length_le_fresh h)

/-- A whole run, from any list. -/
lemma endsAs_run {calls : List HeaderCall} (h : Holding m rest (blocksOf ps none ++ more)) :
    EndsAs rest more (calls.foldlM HeaderCall.apply (ps.map PlacedHeader.header))
      (calls.foldlM HeaderCall.applyNode (firstOf ps none) m) := by
  induction calls generalizing ps m with
  | nil => exact ⟨ps, m, rfl, rfl, h⟩
  | cons call calls ih =>
    have hcall := endsAs_apply h call
    rw [List.foldlM_cons, List.foldlM_cons]
    cases hresult : call.apply (ps.map PlacedHeader.header) with
    | error fault =>
      rw [hresult] at hcall
      obtain ⟨m', hm'⟩ := hcall
      exact ⟨m', bind_of_error hm' _⟩
    | ok headers =>
      rw [hresult] at hcall
      obtain ⟨ps', m', hm', rfl, h'⟩ := hcall
      rw [bind_of_ok hm']
      exact ih h'

end Blocks

/-! ### Blocks that are freed -/

section Freed

variable {key : CString} {value : Option CString}

lemma keepsDead_loadNode (it : ℕ) : KeepsDead (loadNode it) := by
  refine keepsDead_bind (keepsDead_load it) fun b => ?_
  cases b with
  | header node => exact keepsDead_pure node
  | string s => exact keepsDead_throw _
  | request node => exact keepsDead_throw _

lemma keepsDead_loadString (p : Option ℕ) : KeepsDead (loadString p) := by
  cases p with
  | none => exact keepsDead_throw _
  | some p =>
    refine keepsDead_bind (keepsDead_load p) fun b => ?_
    cases b with
    | string s => exact keepsDead_pure s
    | header node => exact keepsDead_throw _
    | request node => exact keepsDead_throw _

lemma keepsDead_strdupValue (value : Option CString) : KeepsDead (strdupValue value) := by
  cases value with
  | none => exact keepsDead_pure none
  | some v => exact keepsDead_ite (keepsDead_pure none) (keepsDead_map (keepsDead_malloc _))

lemma keepsDead_lastNodeFrom (fuel it : ℕ) : KeepsDead (lastNodeFrom fuel it) := by
  induction fuel generalizing it with
  | zero => exact keepsDead_throw _
  | succ fuel ih =>
    refine keepsDead_bind (keepsDead_loadNode it) fun node => ?_
    cases node.next with
    | none => exact keepsDead_pure it
    | some next => exact ih next

lemma keepsDead_add (fuel : ℕ) (first : Option ℕ) :
    KeepsDead (redhttpHeadersAddNode fuel first key value) := by
  refine keepsDead_ite (keepsDead_throw _) ?_
  refine keepsDead_bind (keepsDead_malloc _) fun header =>
    keepsDead_bind (keepsDead_malloc _) fun keyAt =>
    keepsDead_bind (keepsDead_save _ _) fun _ =>
    keepsDead_bind (keepsDead_strdupValue value) fun valueAt =>
    keepsDead_bind (keepsDead_save _ _) fun _ => ?_
  cases first with
  | none => exact keepsDead_pure _
  | some it =>
    exact keepsDead_bind (keepsDead_lastNodeFrom fuel it) fun last =>
      keepsDead_bind (keepsDead_loadNode last) fun node =>
      keepsDead_bind (keepsDead_save _ _) fun _ => keepsDead_pure _

lemma keepsDead_headersSetFrom (fuel : ℕ) (it : Option ℕ) :
    KeepsDead (headersSetFrom key value fuel it) := by
  induction fuel generalizing it with
  | zero =>
    cases it with
    | none => exact keepsDead_pure false
    | some it => exact keepsDead_throw _
  | succ fuel ih =>
    cases it with
    | none => exact keepsDead_pure false
    | some it =>
      refine keepsDead_bind (keepsDead_loadNode it) fun node =>
        keepsDead_bind (keepsDead_loadString node.key) fun s => keepsDead_ite ?_ (ih node.next)
      exact keepsDead_bind (keepsDead_freePointer _) fun _ =>
        keepsDead_bind (keepsDead_strdupValue value) fun _ =>
        keepsDead_bind (keepsDead_save _ _) fun _ => keepsDead_pure true

lemma keepsDead_get (fuel : ℕ) (it : Option ℕ) :
    KeepsDead (redhttpHeadersGetNode key fuel it) := by
  induction fuel generalizing it with
  | zero =>
    cases it with
    | none => exact keepsDead_pure none
    | some it => exact keepsDead_throw _
  | succ fuel ih =>
    cases it with
    | none => exact keepsDead_pure none
    | some it =>
      exact keepsDead_bind (keepsDead_loadNode it) fun node =>
        keepsDead_bind (keepsDead_loadString node.key) fun s =>
        keepsDead_ite (keepsDead_pure _) (ih node.next)

lemma keepsDead_applyNode (first : Option ℕ) (call : HeaderCall) :
    KeepsDead (call.applyNode first) := by
  refine keepsDead_bind keepsDead_walkBound fun fuel => ?_
  cases call with
  | add key value => exact keepsDead_add fuel first
  | set key value =>
    exact keepsDead_bind (keepsDead_headersSetFrom fuel first) fun found =>
      keepsDead_ite (keepsDead_pure first) (keepsDead_add fuel first)
  | parseLine line =>
    refine keepsDead_ite (keepsDead_pure first) (keepsDead_bind (keepsDead_malloc _) fun copy => ?_)
    have hdone : ∀ first' : Option ℕ, KeepsDead (do free copy; pure first' : NodeM (Option ℕ)) :=
      fun first' => keepsDead_bind (keepsDead_free copy) fun _ => keepsDead_pure first'
    cases line.bytes.dropWhile (· != ch ':') with
    | nil => exact hdone first
    | cons c ptr =>
      dsimp only
      split
      · exact hdone first
      · exact keepsDead_bind (keepsDead_add fuel first) hdone

end Freed

/-- In memory a header list is what it is as a list, and it goes without a trace.

Whatever calls are made, they fault where the calls on a list do, and else the functions that
read find the entries that those calls leave; and when the list is freed every block is freed once
and memory is what it was. -/
theorem headerCalls_memory (m : Memory Cell) (calls : List HeaderCall) :
    (∀ fault, HeaderCall.run calls = .error fault →
      ∃ m', HeaderCall.runNode calls m = .error (.fault fault) m') ∧
    ∀ headers, HeaderCall.run calls = .ok headers →
      ∃ first m', HeaderCall.runNode calls m = .ok first m' ∧
        ReadsAs m'.fresh headers first m' ∧
        ∃ m₂, redhttpHeadersFreeNodes m'.fresh first m' = .ok () m₂ ∧ m₂.block = m.block := by
  have hrun : EndsAs m.block [] (HeaderCall.run calls) (HeaderCall.runNode calls m) := by
    have hempty : Holding m m.block (blocksOf [] none ++ []) := holding_nil m
    exact endsAs_run hempty
  refine ⟨fun fault hfault => ?_, fun headers hheaders => ?_⟩
  · rw [hfault] at hrun
    exact hrun
  · rw [hheaders] at hrun
    obtain ⟨ps, m', hnodes, rfl, h'⟩ := hrun
    have hmem : InMemory m' (blocksOf ps none) :=
      fun cell hcell => h'.holds cell (List.mem_append_left _ hcell)
    obtain ⟨m₂, hfree, hnothing⟩ := redhttpHeadersFreeNodes_eq h' (length_le_fresh h')
    exact ⟨_, m', hnodes, readsAs_of_inMemory hmem (length_le_fresh h'), m₂, hfree, hnothing.block_eq⟩

end RedStore.RedHttp
