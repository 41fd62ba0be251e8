/-
`redhttp_negotiate_sort` and `redhttp_negotiate_add` on the nodes in memory.

The sort relinks the nodes of a list in place, with `e` at the start of what is sorted
already.  The functions on lists of `RedStore.RedHttp.Negotiate` say what the list holds; the
functions here say how it is linked, which is where a node could be lost or the walk could go
round in a circle.
-/
import RedStore.CLib.LinkedList
import RedStore.CLib.Loop
import RedStore.RedHttp.NegotiateItems

namespace RedStore.RedHttp
open CLib

/-! ### The nodes -/

/-- The nodes in memory, by their address, and the pointer to the first one of a list. -/
structure NodeList where
  /-- `next` of a node. -/
  next : ℕ → Option ℕ
  /-- `type` and `q` of a node. -/
  entry : ℕ → Negotiate
  /-- From here on `calloc` finds room. -/
  free : ℕ
  /-- `*first`. -/
  first : Option ℕ

/-- The quality of a node. -/
def NodeList.q (h : NodeList) (n : ℕ) : ℕ := (h.entry n).q

/-- What `->` needs. -/
def deref : Option ℕ → Except Fault ℕ
  | some n => .ok n
  | none => .error .nullPointer

/-! ### `redhttp_negotiate_sort` -/

/-- The variables of `redhttp_negotiate_sort`, with the links and `*first`. -/
structure SortState where
  next : ℕ → Option ℕ
  first : Option ℕ
  a : Option ℕ := none
  b : Option ℕ := none
  c : Option ℕ := none
  e : Option ℕ := none

/-- The comparison of `a` and `b` in the inner loop, and the relinking. -/
def compareNodes (q : ℕ → ℕ) (s : SortState) : Except Fault SortState := do
  let a ← deref s.a
  let b ← deref s.b
  if q a < q b then
    -- tmp = b->next; b->next = a; a->next = tmp
    let next := swapLinks s.next a b
    if s.a = s.first then .ok { s with next, first := some b, c := some b }
    else do
      let c ← deref s.c
      .ok { s with next := Function.update next c (some b), c := some b }
  else .ok { s with c := s.a, a := s.next a }

/-- The end of a round of the inner loop: `b = a->next; if (b == e) e = a;`. -/
def lookBehind (s : SortState) : Except Fault SortState := do
  let a ← deref s.a
  let b := s.next a
  .ok (if b = s.e then { s with b, e := s.a } else { s with b })

/-- The inner loop of `redhttp_negotiate_sort`. -/
def sortInner (q : ℕ → ℕ) (fuel : ℕ) : SortState → Except Fault (Option SortState) :=
  whileLoop (fun s => .ok (s.a != s.e))
    (fun s => do
      let s ← compareNodes q s
      some <$> lookBehind s) fuel

/-- `e != (*first)->next`. -/
def unsorted (s : SortState) : Except Fault Bool := do
  let first ← deref s.first
  .ok (s.e != s.next first)

/-- A round of the outer loop. -/
def sortRound (q : ℕ → ℕ) (fuel : ℕ) (s : SortState) : Except Fault (Option SortState) := do
  let first ← deref s.first
  sortInner q fuel { s with c := s.first, a := s.first, b := s.next first }

/-- The outer loop of `redhttp_negotiate_sort`. -/
def sortOuter (q : ℕ → ℕ) (fuel : ℕ) : SortState → Except Fault (Option SortState) :=
  whileLoop unsorted (sortRound q fuel) fuel

/-- `redhttp_negotiate_sort`. -/
def redhttpNegotiateSortNodes (fuel : ℕ) (h : NodeList) : Except Fault (Option NodeList) :=
  if h.first = none then .ok (some h)
  else do
    let s ← sortOuter h.q fuel { next := h.next, first := h.first }
    .ok (s.map fun s => { h with next := s.next, first := s.first })

/-! ### `redhttp_negotiate_add` -/

/-- The walk of `redhttp_negotiate_add` to the last node. -/
def lastNode (next : ℕ → Option ℕ) (fuel : ℕ) : ℕ → Except Fault (Option ℕ) :=
  whileLoop (fun it => .ok (next it).isSome)
    (fun it => some <$> deref (next it)) fuel

/-- The new node of `redhttp_negotiate_add`. -/
def NodeList.withNode (h : NodeList) (entry : Negotiate) : NodeList :=
  { h with
    next := Function.update h.next h.free none
    entry := Function.update h.entry h.free entry
    free := h.free + 1 }

/-- `redhttp_negotiate_add`. -/
def redhttpNegotiateAddNode (fuel : ℕ) (h : NodeList) (type : List UInt8) (q : ℕ) :
    Except Fault (Option NodeList) :=
  -- assert(type_len > 0), assert(q <= 10 && q >= 0)
  if type.length = 0 ∨ 10 < q then .error .assertion
  else do
    let type ← trimLoops type
    let new := h.free
    let h := h.withNode ⟨type, q⟩
    match h.first with
    | some first =>
      match ← lastNode h.next fuel first with
      | some it =>
        redhttpNegotiateSortNodes fuel { h with next := Function.update h.next it (some new) }
      | none => .ok none
    | none => redhttpNegotiateSortNodes fuel { h with first := some new }

/-! ### The inner loop -/

section Pass

variable {q : ℕ → ℕ} {links : ℕ → Option ℕ} {result suf front rest : List ℕ} {a b : ℕ}
  {s : SortState}

/-- In the middle of a pass: `a` is behind the nodes of `front`, those of `rest` are still to
be compared, and those of `suf` are sorted already. -/
structure PassInv (q : ℕ → ℕ) (links : ℕ → Option ℕ) (result suf front : List ℕ) (a : ℕ)
    (rest : List ℕ) (s : SortState) : Prop where
  chain : Chain s.next s.first (front ++ a :: rest ++ suf) none
  pass : front ++ bubblePass q a rest = result
  at_a : s.a = some a
  at_b : s.b = s.next a
  at_c : front ≠ [] → s.c = front.getLast?
  at_e : s.e = if rest = [] then some a else suf.head?
  frame : ∀ n ∉ result ++ suf, s.next n = links n

/-- The nodes of a pass are those of its result. -/
lemma mem_of_pass (h : front ++ bubblePass q a rest = result) {n : ℕ} :
    n ∈ result ↔ n ∈ front ++ a :: rest := by
  rw [← h]
  exact ((bubblePass_perm a rest).append_left front).mem_iff

/-- What the comparison leaves behind is completed by the end of the round. -/
lemma lookBehind_apply (suf front rest : List ℕ) (s : SortState)
    (hchain : Chain s.next s.first (front ++ a :: rest ++ suf) none)
    (hpass : front ++ bubblePass q a rest = result) (ha : s.a = some a)
    (hc : front ≠ [] → s.c = front.getLast?) (he : s.e = suf.head?)
    (hframe : ∀ n ∉ result ++ suf, s.next n = links n) :
    ∃ s', lookBehind s = .ok s' ∧ PassInv q links result suf front a rest s' := by
  have hnext : s.next a = (rest ++ suf).head? := by
    rw [List.append_assoc, List.cons_append] at hchain
    exact hchain.next_eq
  have hrun : lookBehind s = .ok (if s.next a = s.e then { s with b := s.next a, e := s.a }
      else { s with b := s.next a }) := by
    rw [lookBehind, ha]
    rfl
  refine ⟨_, hrun, ?_⟩
  cases rest with
  | nil =>
    rw [if_pos (by rw [hnext, he, List.nil_append])]
    exact ⟨hchain, hpass, ha, rfl, hc, by simpa using ha, hframe⟩
  | cons b rest =>
    -- what follows `a` is not the first of the sorted nodes
    have hne : s.next a ≠ s.e := by
      rw [hnext, he, List.cons_append, List.head?_cons]
      intro heq
      have hnodup := hchain.nodup
      rw [List.nodup_append] at hnodup
      exact hnodup.2.2 b (by simp) b (List.mem_of_head? heq.symm) rfl
    rw [if_neg hne]
    exact ⟨hchain, hpass, ha, rfl, hc, by simpa using he, hframe⟩

/-- One round of the inner loop. -/
lemma PassInv.round (h : PassInv q links result suf front a (b :: rest) s) :
    ∃ s₁ s' front' a', compareNodes q s = .ok s₁ ∧ lookBehind s₁ = .ok s' ∧
      PassInv q links result suf front' a' rest s' := by
  obtain ⟨hchain, hpass, ha, hb, hc, he, hframe⟩ := h
  rw [if_neg (List.cons_ne_nil _ _)] at he
  have hmem : ∀ n, n ∈ result ↔ n ∈ front ++ a :: b :: rest := fun n => mem_of_pass hpass
  rw [List.append_assoc, List.cons_append, List.cons_append] at hchain
  have hnext : s.next a = some b := hchain.next_eq
  rw [hnext] at hb
  rw [bubblePass] at hpass
  by_cases hlt : q a < q b
  · rw [if_pos hlt, ← List.singleton_append, ← List.append_assoc] at hpass
    -- outside the list no link is touched
    have houtside : ∀ n ∉ result ++ suf, swapLinks s.next a b n = links n := by
      intro n hn
      rw [List.mem_append, hmem] at hn
      rw [swapLinks_of_ne (by rintro rfl; simp at hn) (by rintro rfl; simp at hn)]
      exact hframe n (by rwa [List.mem_append, hmem])
    rcases List.eq_nil_or_concat' front with rfl | ⟨front, c, rfl⟩
    · -- `a` is the first node
      have hrun : compareNodes q s = .ok
          { s with next := swapLinks s.next a b, first := some b, c := some b } := by
        have hfirst : s.a = s.first := ha.trans hchain.head.symm
        simp only [compareNodes, ha, hb, deref, bind, Except.bind, hlt, if_true]
        rw [if_pos (ha ▸ hfirst)]
      obtain ⟨s', hs', hinv⟩ := lookBehind_apply suf [b] rest
        { s with next := swapLinks s.next a b, first := some b, c := some b }
        hchain.swap hpass ha (fun _ => rfl) he houtside
      exact ⟨_, s', [b], a, hrun, hs', hinv⟩
    · -- `c` is the node in front of `a`
      have hlast : s.c = some c := by rw [hc (by simp), List.getLast?_concat]
      have hnodup := hchain.nodup
      rw [List.nodup_append] at hnodup
      have hfirst : ¬ some a = s.first := by
        intro heq
        rw [hchain.head] at heq
        have ha : a ∈ front ++ [c] := by
          cases front with
          | nil => simpa using heq
          | cons f front =>
            rw [List.cons_append, List.cons_append, List.head?_cons, Option.some.injEq] at heq
            simp [heq]
        exact hnodup.2.2 a ha a (by simp) rfl
      have hrun : compareNodes q s = .ok
          { s with
            next := Function.update (swapLinks s.next a b) c (some b)
            c := some b } := by
        simp only [compareNodes, ha, hb, hlast, deref, bind, Except.bind, hlt, if_true]
        rw [if_neg hfirst]
      rw [List.append_assoc, List.singleton_append] at hchain
      have hswapped := hchain.swap_behind
      have hframe' : ∀ n ∉ result ++ suf,
          Function.update (swapLinks s.next a b) c (some b) n = links n := by
        intro n hn
        have hnc : n ≠ c := by
          rintro rfl
          exact hn (by simp [hmem])
        rw [Function.update_of_ne hnc]
        exact houtside n hn
      obtain ⟨s', hs', hinv⟩ := lookBehind_apply suf (front ++ [c] ++ [b]) rest
        { s with next := Function.update (swapLinks s.next a b) c (some b), c := some b }
        (by simpa using hswapped) hpass ha (fun _ => by rw [List.getLast?_concat]) he hframe'
      exact ⟨_, s', front ++ [c] ++ [b], a, hrun, hs', hinv⟩
  · rw [if_neg hlt, ← List.singleton_append, ← List.append_assoc] at hpass
    have hrun : compareNodes q s = .ok { s with c := s.a, a := s.next a } := by
      simp only [compareNodes, ha, hb, deref, bind, Except.bind, hlt, if_false]
    have hlast : front ++ [a] ≠ [] → s.a = (front ++ [a]).getLast? := fun _ => by
      rw [List.getLast?_concat]
      exact ha
    obtain ⟨s', hs', hinv⟩ := lookBehind_apply suf (front ++ [a]) rest
      { s with c := s.a, a := s.next a } (by simpa using hchain) hpass hnext hlast he hframe
    exact ⟨_, s', front ++ [a], b, hrun, hs', hinv⟩

/-- The state of the inner loop with `n` nodes to compare. -/
def InnerInv (q : ℕ → ℕ) (links : ℕ → Option ℕ) (result suf : List ℕ) (n : ℕ) (s : SortState) :
    Prop := ∃ front a rest, rest.length = n ∧ PassInv q links result suf front a rest s

/-- The inner loop is a pass of bubble sort, and ends with `e` at its last node. -/
lemma sortInner_apply (h : PassInv q links result suf front a rest s) :
    ∃ s' front' a', (∀ fuel > rest.length, sortInner q fuel s = .ok (some s')) ∧
      PassInv q links result suf front' a' [] s' := by
  have hdone : ∀ s, InnerInv q links result suf 0 s →
      (.ok (s.a != s.e) : Except Fault Bool) = .ok false := by
    rintro s ⟨front, a, rest, hlength, hinv⟩
    obtain rfl := List.length_eq_zero_iff.mp hlength
    simp [hinv.at_a, hinv.at_e]
  have hround : ∀ n s, InnerInv q links result suf (n + 1) s →
      (.ok (s.a != s.e) : Except Fault Bool) = .ok true ∧
        ∃ s', (do let s ← compareNodes q s; some <$> lookBehind s) = .ok (some s') ∧
          InnerInv q links result suf n s' := by
    rintro n s ⟨front, a, rest, hlength, hinv⟩
    obtain ⟨b, rest, rfl⟩ := List.exists_cons_of_length_eq_add_one hlength
    obtain ⟨s₁, s', front', a', hs₁, hs', hinv'⟩ := hinv.round
    refine ⟨?_, s', ?_, front', a', rest, by simpa using hlength, hinv'⟩
    · -- `a` is not among the sorted nodes
      have hnodup := hinv.chain.nodup
      rw [List.nodup_append] at hnodup
      have hne : s.a ≠ s.e := by
        rw [hinv.at_a, hinv.at_e, if_neg (List.cons_ne_nil _ _)]
        intro heq
        exact hnodup.2.2 a (by simp) a (List.mem_of_head? heq.symm) rfl
      simpa using hne
    · rw [hs₁]
      show some <$> lookBehind s₁ = _
      rw [hs']
      rfl
  obtain ⟨-, s', ⟨front', a', rest', hlength, hinv⟩, hlong⟩ :=
    whileLoop_of_rounds (InnerInv q links result suf) hdone hround ⟨front, a, rest, rfl, h⟩
  obtain rfl := List.length_eq_zero_iff.mp hlength
  exact ⟨s', front', a', hlong, hinv⟩

end Pass

/-! ### The outer loop -/

section Passes

variable {q : ℕ → ℕ} {links : ℕ → Option ℕ} {nodes : List ℕ}

/-- In the middle of the sort, with `n + 1` nodes that are not in their place yet. -/
def OuterInv (q : ℕ → ℕ) (links : ℕ → Option ℕ) (nodes : List ℕ) (n : ℕ) (s : SortState) : Prop :=
  ∃ todo done, todo.length = n + 1 ∧ Chain s.next s.first (todo ++ done) none ∧
    s.e = done.head? ∧ bubblePasses q (n + 1) (todo ++ done) = bubbleSort q nodes ∧
    (todo ++ done).Perm nodes ∧ ∀ m ∉ nodes, s.next m = links m

/-- A round of the outer loop puts one more node in its place. -/
lemma OuterInv.round {n : ℕ} {s : SortState} {first : ℕ} (h : OuterInv q links nodes (n + 1) s)
    (hfirst : s.first = some first) :
    ∃ s', (∀ fuel > nodes.length, sortRound q fuel s = .ok (some s')) ∧
      OuterInv q links nodes n s' := by
  obtain ⟨todo, done, hlength, hchain, he, hpasses, hperm, hframe⟩ := h
  obtain ⟨first', rest, rfl⟩ := List.exists_cons_of_length_eq_add_one hlength
  obtain rfl : first' = first := Option.some.inj (hchain.1.symm.trans hfirst)
  have hrest : rest.length = n + 1 := by simpa using hlength
  have hne : rest ≠ [] := by
    rintro rfl
    cases hrest
  have hmem : ∀ m, m ∉ bubblePass q first' rest ++ done → m ∉ nodes := by
    intro m hm hn
    refine hm ?_
    have hold := hperm.mem_iff.mpr hn
    rwa [List.mem_append, (bubblePass_perm first' rest).mem_iff, ← List.mem_append]
  have hstart : PassInv q links (bubblePass q first' rest) done [] first' rest
      { s with c := s.first, a := s.first, b := s.next first' } :=
    ⟨by simpa using hchain, rfl, hfirst, rfl, by simp, by simpa [hne] using he,
      fun m hm => hframe m (hmem m hm)⟩
  obtain ⟨s', front, last, hrun, hinv⟩ := sortInner_apply hstart
  have hle : rest.length ≤ nodes.length := by
    have := hperm.length_eq
    simp only [List.cons_append, List.length_cons, List.length_append] at this
    omega
  -- the last node of the pass is the first of the sorted ones
  have hpass : front ++ [last] = bubblePass q first' rest := hinv.pass
  have hfront : front.length = n + 1 := by
    have := congrArg List.length hpass
    simp only [List.length_append, List.length_singleton, length_bubblePass] at this
    omega
  have hround : ∀ fuel > nodes.length, sortRound q fuel s = .ok (some s') := by
    intro fuel hfuel
    have hderef : deref s.first = .ok first' := by
      rw [hfirst]
      rfl
    simp only [sortRound, hderef, bind, Except.bind]
    exact hrun fuel (by omega)
  refine ⟨s', hround, front, last :: done, hfront, ?_, ?_, ?_, ?_, ?_⟩
  · simpa using hinv.chain
  · simpa using hinv.at_e
  · have htake : (rest ++ done).take (n + 1) = rest := by rw [← hrest, List.take_left]
    have hdrop : (rest ++ done).drop (n + 1) = done := by rw [← hrest, List.drop_left]
    rw [← hpasses, List.cons_append, bubblePasses, htake, hdrop, ← hpass, List.append_assoc,
      List.singleton_append]
  · refine List.Perm.trans ?_ hperm
    have hsame : (front ++ [last] ++ done).Perm (first' :: rest ++ done) := by
      rw [hpass]
      exact (bubblePass_perm first' rest).append_right done
    simpa using hsame
  · intro m hm
    refine hinv.frame m fun hin => hm ?_
    rw [List.mem_append, (bubblePass_perm first' rest).mem_iff, ← List.mem_append] at hin
    exact hperm.mem_iff.mp hin

lemma unsorted_of_first {s : SortState} {first : ℕ} (h : s.first = some first) :
    unsorted s = .ok (s.e != s.next first) := by
  rw [unsorted, h]
  rfl

/-- The outer loop is bubble sort, and leaves alone the links of all other nodes. -/
lemma sortOuter_apply {s : SortState} (hchain : Chain s.next s.first nodes none)
    (hne : nodes ≠ []) (he : s.e = none) :
    ∃ s', (∀ fuel > nodes.length, sortOuter q fuel s = .ok (some s')) ∧
      Chain s'.next s'.first (bubbleSort q nodes) none ∧ ∀ n ∉ nodes, s'.next n = s.next n := by
  have hdone : ∀ t, OuterInv q s.next nodes 0 t → unsorted t = .ok false := by
    rintro t ⟨todo, done, hlength, hchain, he, -⟩
    obtain ⟨first, rfl⟩ := List.length_eq_one_iff.mp hlength
    have hnext : t.next first = done.head? := hchain.2.head
    rw [unsorted_of_first hchain.1, he, hnext, bne_self_eq_false]
  have hround : ∀ n t, OuterInv q s.next nodes (n + 1) t → unsorted t = .ok true ∧
      ∃ s', (∀ fuel > nodes.length, sortRound q fuel t = .ok (some s')) ∧
        OuterInv q s.next nodes n s' := by
    intro n t hinv
    obtain ⟨todo, done, hlength, hchain, he, -⟩ := id hinv
    obtain ⟨first, rest, rfl⟩ := List.exists_cons_of_length_eq_add_one hlength
    refine ⟨?_, hinv.round hchain.1⟩
    obtain ⟨second, rest, rfl⟩ :=
      List.exists_cons_of_length_eq_add_one (by simpa using hlength : rest.length = n + 1)
    have hnext : t.next first = some second := hchain.2.head
    have hnodup := hchain.nodup
    rw [List.nodup_append] at hnodup
    have hne : t.e ≠ t.next first := by
      rw [he, hnext]
      intro heq
      exact hnodup.2.2 second (by simp) second (List.mem_of_head? heq) rfl
    rw [unsorted_of_first hchain.1, bne_iff_ne.mpr hne]
  obtain ⟨n, hn⟩ : ∃ n, nodes.length = n + 1 :=
    Nat.exists_eq_succ_of_ne_zero (by simpa using hne)
  have hstart : OuterInv q s.next nodes n s := by
    refine ⟨nodes, [], hn, by simpa using hchain, by simpa using he, ?_, by simp, fun _ _ => rfl⟩
    rw [List.append_nil, bubbleSort, hn]
  obtain ⟨-, s', ⟨todo, done, hlength, hchain', -, hpasses, -, hframe⟩, hlong⟩ :=
    whileLoop_of_nested_rounds (OuterInv q s.next nodes) hdone hround hstart
  refine ⟨s', fun fuel hfuel => hlong fuel hfuel fuel (by omega), ?_, hframe⟩
  obtain ⟨first, rfl⟩ := List.length_eq_one_iff.mp hlength
  rwa [← hpasses]

end Passes

/-- The sort terminates and links the nodes in the order of bubble sort. -/
lemma redhttpNegotiateSortNodes_apply {h : NodeList} {nodes : List ℕ}
    (hchain : Chain h.next h.first nodes none) :
    ∃ h', (∀ fuel > nodes.length, redhttpNegotiateSortNodes fuel h = .ok (some h')) ∧
      Chain h'.next h'.first (bubbleSort h.q nodes) none ∧
      h'.entry = h.entry ∧ h'.free = h.free ∧ ∀ n ∉ nodes, h'.next n = h.next n := by
  by_cases hnil : nodes = []
  · subst hnil
    have hfirst : h.first = none := hchain
    refine ⟨h, fun fuel _ => ?_, hchain, rfl, rfl, fun _ _ => rfl⟩
    rw [redhttpNegotiateSortNodes, if_pos hfirst]
  · obtain ⟨s', hrun, hchain', hframe⟩ := sortOuter_apply (q := h.q)
      (s := { next := h.next, first := h.first }) hchain hnil rfl
    have hfirst : h.first ≠ none := by
      rw [hchain.head]
      simpa using hnil
    refine ⟨{ h with next := s'.next, first := s'.first }, fun fuel hfuel => ?_, hchain', rfl,
      rfl, hframe⟩
    rw [redhttpNegotiateSortNodes, if_neg hfirst, hrun fuel hfuel]
    rfl

/-! ### Adding nodes -/

/-- What the list holds: its nodes are below `free`, and in order these are their entries. -/
def NodeList.Holds (h : NodeList) (list : List Negotiate) : Prop :=
  ∃ nodes, Chain h.next h.first nodes none ∧ nodes.map h.entry = list ∧ ∀ n ∈ nodes, n < h.free

/-- The list before anything is added. -/
def NodeList.empty : NodeList :=
  { next := fun _ => none, entry := fun _ => ⟨CString.lit "", 0⟩, free := 0, first := none }

lemma NodeList.holds_empty : NodeList.empty.Holds [] := ⟨[], rfl, rfl, by simp⟩

/-- Sorting the nodes sorts the entries. -/
lemma map_bubbleSort (h : NodeList) (nodes : List ℕ) :
    (bubbleSort h.q nodes).map h.entry = redhttpNegotiateSort (nodes.map h.entry) := by
  have hnodes : StableSort (Negotiate.q ∘ h.entry) nodes (bubbleSort h.q nodes) :=
    stableSort_bubbleSort nodes
  exact hnodes.map.unique (stableSort_redhttpNegotiateSort _)

/-- The walk ends at the last node. -/
lemma lastNode_apply {next : ℕ → Option ℕ} {front : List ℕ} {first a fuel : ℕ}
    (hchain : Chain next (some first) (front ++ [a]) none) (hfuel : front.length < fuel) :
    lastNode next fuel first = .ok (some a) := by
  induction front generalizing first fuel with
  | nil =>
    obtain ⟨fuel, rfl⟩ := Nat.exists_eq_succ_of_ne_zero (by omega : fuel ≠ 0)
    obtain rfl : first = a := Option.some.inj hchain.1
    have hend : next first = none := hchain.2
    exact whileLoop_of_false (by simp [hend])
  | cons b front ih =>
    obtain ⟨fuel, rfl⟩ := Nat.exists_eq_succ_of_ne_zero (by omega : fuel ≠ 0)
    obtain rfl : first = b := Option.some.inj hchain.1
    obtain ⟨second, hsecond⟩ : ∃ second, next first = some second := by
      rw [hchain.2.head]
      cases front <;> simp
    have hrest : Chain next (some second) (front ++ [a]) none := hsecond ▸ hchain.2
    have hstep : lastNode next (fuel + 1) first = lastNode next fuel second := by
      refine whileLoop_of_true (by simp [hsecond]) ?_
      rw [hsecond]
      rfl
    rw [hstep]
    exact ih hrest (by simpa using hfuel)

/-- The new node, behind the others. -/
lemma NodeList.withNode_chain {h : NodeList} {nodes : List ℕ} (entry : Negotiate)
    (hchain : Chain h.next h.first nodes none) (hused : ∀ n ∈ nodes, n < h.free) :
    Chain (h.withNode entry).next h.first nodes none ∧
      nodes.map (h.withNode entry).entry = nodes.map h.entry ∧
      (h.withNode entry).entry h.free = entry ∧ (h.withNode entry).next h.free = none := by
  have hfree : h.free ∉ nodes := fun hmem => (hused _ hmem).ne rfl
  refine ⟨hchain.update hfree none, List.map_congr_left fun n hn => ?_,
    Function.update_self _ _ _, Function.update_self _ _ _⟩
  exact Function.update_of_ne (hused n hn).ne _ _

/-- `redhttp_negotiate_add` on the nodes is `redhttp_negotiate_add` on what they hold. -/
lemma redhttpNegotiateAddNode_apply {h : NodeList} {list list' : List Negotiate}
    {type : List UInt8} {q : ℕ} (hlist : h.Holds list)
    (hadd : redhttpNegotiateAdd list type q = .ok list') :
    ∃ h', (∀ fuel > list.length + 1, redhttpNegotiateAddNode fuel h type q = .ok (some h')) ∧
      h'.Holds list' := by
  obtain ⟨nodes, hchain, rfl, hused⟩ := hlist
  rw [redhttpNegotiateAdd] at hadd
  split at hadd
  · cases hadd
  next hargs =>
  cases htrim : trimType type with
  | error e => simp [htrim, bind, Except.bind] at hadd
  | ok trimmed =>
    obtain rfl : redhttpNegotiateSort (nodes.map h.entry ++ [⟨trimmed, q⟩]) = list' := by
      simpa [htrim, bind, Except.bind] using hadd
    obtain ⟨hold, hentries, hentry, hnext⟩ := NodeList.withNode_chain ⟨trimmed, q⟩ hchain hused
    have hfree : h.free ∉ nodes := fun hmem => (hused _ hmem).ne rfl
    -- whether the list was empty or not, the new node is linked in behind the others
    obtain ⟨linked, hlinked, hentry', hfree', hrun⟩ : ∃ linked : NodeList,
        Chain linked.next linked.first (nodes ++ [h.free]) none ∧
        linked.entry = (h.withNode ⟨trimmed, q⟩).entry ∧ linked.free = h.free + 1 ∧
        ∀ fuel > nodes.length + 1, redhttpNegotiateAddNode fuel h type q =
          redhttpNegotiateSortNodes fuel linked := by
      rcases List.eq_nil_or_concat' nodes with rfl | ⟨front, a, rfl⟩
      · have hfirst : (h.withNode ⟨trimmed, q⟩).first = none := hchain
        refine ⟨{ h.withNode ⟨trimmed, q⟩ with first := some h.free }, ⟨rfl, hnext⟩, rfl, rfl, ?_⟩
        intro fuel _
        simp only [redhttpNegotiateAddNode, if_neg hargs, trimLoops_eq, htrim, bind, Except.bind,
          hfirst]
      · obtain ⟨first, hfirst⟩ : ∃ first, (h.withNode ⟨trimmed, q⟩).first = some first := by
          show ∃ first, h.first = some first
          rw [hchain.head]
          cases front <;> simp
        refine ⟨{ h.withNode ⟨trimmed, q⟩ with
          next := Function.update (h.withNode ⟨trimmed, q⟩).next a (some h.free) },
          hold.link_last hfree hnext, rfl, rfl, ?_⟩
        intro fuel hfuel
        have hwalk : lastNode (h.withNode ⟨trimmed, q⟩).next fuel first = .ok (some a) :=
          lastNode_apply (hfirst ▸ hold) (by simp at hfuel; omega)
        simp only [redhttpNegotiateAddNode, if_neg hargs, trimLoops_eq, htrim, bind, Except.bind,
          hfirst, hwalk]
    obtain ⟨h', hsort, hchain', hentry'', hfree'', -⟩ := redhttpNegotiateSortNodes_apply hlinked
    refine ⟨h', fun fuel hfuel => ?_, bubbleSort linked.q (nodes ++ [h.free]), hchain', ?_, ?_⟩
    · rw [List.length_map] at hfuel
      rw [hrun fuel hfuel, hsort fuel (by simpa using hfuel)]
    · rw [hentry'', map_bubbleSort, List.map_append, hentry', hentries]
      simp [hentry]
    · intro n hn
      rw [(stableSort_bubbleSort (nodes ++ [h.free])).perm.mem_iff, List.mem_append,
        List.mem_singleton] at hn
      rw [hfree'', hfree']
      rcases hn with hn | rfl
      · exact (hused n hn).trans (Nat.lt_succ_self _)
      · exact Nat.lt_succ_self _

lemma redhttpNegotiateAddNode_of_error {h : NodeList} {list : List Negotiate} {type : List UInt8}
    {q : ℕ} {e : Fault} (hadd : redhttpNegotiateAdd list type q = .error e) (fuel : ℕ) :
    redhttpNegotiateAddNode fuel h type q = .error e := by
  rw [redhttpNegotiateAdd] at hadd
  rw [redhttpNegotiateAddNode]
  split at hadd
  · next hargs =>
    obtain rfl := Except.error.inj hadd
    rw [if_pos hargs]
  · next hargs =>
    rw [if_neg hargs, trimLoops_eq]
    cases htrim : trimType type with
    | error e' =>
      obtain rfl : e' = e := by simpa [htrim, bind, Except.bind] using hadd
      rfl
    | ok trimmed => simp [htrim, bind, Except.bind] at hadd

/-! ### A list that is built -/

/-- The arguments of a call of `redhttp_negotiate_add`. -/
structure AddCall where
  type : List UInt8
  q : ℕ

namespace AddCall

/-- A call that meets the assertions, and whose type the trimming loops stay in. -/
def Addable (call : AddCall) : Prop := (∃ c ∈ call.type, isspace c = false) ∧ call.q ≤ 10

instance (call : AddCall) : Decidable call.Addable := inferInstanceAs (Decidable (_ ∧ _))

/-- The entry that a call adds. -/
def entry (call : AddCall) : Negotiate :=
  ⟨CString.ofBytes ((call.type.dropWhile isspace).rdropWhile isspace), call.q⟩

/-- Some calls, one after the other. -/
def run (calls : List AddCall) (list : List Negotiate) : Except Fault (List Negotiate) :=
  calls.foldlM (fun list call => redhttpNegotiateAdd list call.type call.q) list

/-- Some calls on the nodes in memory. -/
def runNodes (fuel : ℕ) : List AddCall → NodeList → Except Fault (Option NodeList)
  | [], h => .ok (some h)
  | call :: calls, h => do
    match ← redhttpNegotiateAddNode fuel h call.type call.q with
    | some h => runNodes fuel calls h
    | none => .ok none

end AddCall

/-- A call gets through exactly when it can be added, and then adds its entry. -/
lemma AddCall.add_eq (call : AddCall) (list : List Negotiate) :
    (call.Addable → redhttpNegotiateAdd list call.type call.q =
      .ok (redhttpNegotiateSort (list ++ [call.entry]))) ∧
    (¬ call.Addable → ∃ e, redhttpNegotiateAdd list call.type call.q = .error e) := by
  have hne : call.type.dropWhile isspace = [] ↔ ¬ ∃ c ∈ call.type, isspace c = false := by
    rw [List.dropWhile_eq_nil_iff]
    push Not
    simp
  constructor
  · rintro ⟨hnamed, hq⟩
    obtain ⟨c, hc, -⟩ := id hnamed
    have hargs : ¬ (call.type.length = 0 ∨ 10 < call.q) := by
      rw [not_or, List.length_eq_zero_iff]
      exact ⟨List.ne_nil_of_mem hc, by omega⟩
    have hdrop : call.type.dropWhile isspace ≠ [] := fun hnil => hne.mp hnil hnamed
    rw [redhttpNegotiateAdd, if_neg hargs, trimType]
    simp only [hdrop, if_false]
    rfl
  · intro hnot
    rw [redhttpNegotiateAdd]
    split
    · exact ⟨_, rfl⟩
    · next hargs =>
      have hdrop : call.type.dropWhile isspace = [] := by
        rw [hne]
        exact fun hnamed => hnot ⟨hnamed, by omega⟩
      refine ⟨.outOfBounds, ?_⟩
      simp [trimType, hdrop, bind, Except.bind]

lemma AddCall.run_cons_of_ok {call : AddCall} {list list' : List Negotiate}
    (h : redhttpNegotiateAdd list call.type call.q = .ok list') (calls : List AddCall) :
    AddCall.run (call :: calls) list = AddCall.run calls list' := by
  rw [AddCall.run, List.foldlM_cons, h]
  rfl

lemma AddCall.run_cons_of_error {call : AddCall} {list : List Negotiate} {e : Fault}
    (h : redhttpNegotiateAdd list call.type call.q = .error e) (calls : List AddCall) :
    AddCall.run (call :: calls) list = .error e := by
  rw [AddCall.run, List.foldlM_cons, h]
  rfl

/-- What calls have built is the stable sort of their entries, behind those there were. -/
lemma AddCall.run_stable {calls : List AddCall} (h : ∀ call ∈ calls, call.Addable)
    {entries list : List Negotiate} (hlist : StableSort Negotiate.q entries list) :
    ∃ list', AddCall.run calls list = .ok list' ∧
      StableSort Negotiate.q (entries ++ calls.map AddCall.entry) list' := by
  induction calls generalizing entries list with
  | nil => exact ⟨list, rfl, by simpa using hlist⟩
  | cons call calls ih =>
    rw [List.forall_mem_cons] at h
    have hstep := hlist.append (stableSort_redhttpNegotiateSort (list ++ [call.entry]))
    obtain ⟨list', hrun, hstable⟩ := ih h.2 hstep
    refine ⟨list', ?_, by simpa using hstable⟩
    rw [AddCall.run_cons_of_ok ((call.add_eq list).1 h.1), hrun]

lemma AddCall.run_of_not {calls : List AddCall} (h : ¬ ∀ call ∈ calls, call.Addable)
    (list : List Negotiate) : ∃ e, AddCall.run calls list = .error e := by
  induction calls generalizing list with
  | nil => simp at h
  | cons call calls ih =>
    by_cases hcall : call.Addable
    · rw [AddCall.run_cons_of_ok ((call.add_eq list).1 hcall)]
      exact ih (by simpa [hcall] using h) _
    · obtain ⟨e, he⟩ := (call.add_eq list).2 hcall
      exact ⟨e, AddCall.run_cons_of_error he calls⟩

/-- One more entry is there after a call. -/
lemma AddCall.length_of_add {call : AddCall} {list list' : List Negotiate}
    (h : redhttpNegotiateAdd list call.type call.q = .ok list') :
    list'.length = list.length + 1 := by
  by_cases hcall : call.Addable
  · rw [(call.add_eq list).1 hcall] at h
    obtain rfl := Except.ok.inj h
    rw [(stableSort_redhttpNegotiateSort _).perm.length_eq, List.length_append,
      List.length_singleton]
  · obtain ⟨e, he⟩ := (call.add_eq list).2 hcall
    rw [he] at h
    cases h

/-- The calls on the nodes in memory are the calls on what they hold. -/
lemma AddCall.runNodes_apply (calls : List AddCall) {list : List Negotiate} {h : NodeList}
    (hlist : h.Holds list) :
    (∀ list', AddCall.run calls list = .ok list' → ∃ h', h'.Holds list' ∧
      ∀ fuel > list.length + calls.length, AddCall.runNodes fuel calls h = .ok (some h')) ∧
    (∀ e, AddCall.run calls list = .error e →
      ∀ fuel > list.length + calls.length, AddCall.runNodes fuel calls h = .error e) := by
  induction calls generalizing list h with
  | nil =>
    refine ⟨fun list' hrun => ?_, fun e hrun => ?_⟩
    · obtain rfl : list = list' := Except.ok.inj hrun
      exact ⟨h, hlist, fun _ _ => rfl⟩
    · cases hrun
  | cons call calls ih =>
    rw [List.length_cons]
    cases hadd : redhttpNegotiateAdd list call.type call.q with
    | error e =>
      rw [AddCall.run_cons_of_error hadd]
      refine ⟨fun list' hrun => ?_, fun e' hrun fuel _ => ?_⟩
      · cases hrun
      · obtain rfl : e = e' := Except.error.inj hrun
        simp only [AddCall.runNodes, redhttpNegotiateAddNode_of_error hadd, bind, Except.bind]
    | ok list₁ =>
      rw [AddCall.run_cons_of_ok hadd]
      obtain ⟨h₁, hstep, hlist₁⟩ := redhttpNegotiateAddNode_apply hlist hadd
      have hlength := AddCall.length_of_add hadd
      have hrest : ∀ fuel > list.length + (calls.length + 1),
          AddCall.runNodes fuel (call :: calls) h = AddCall.runNodes fuel calls h₁ := by
        intro fuel hfuel
        simp only [AddCall.runNodes, hstep fuel (by omega), bind, Except.bind]
      refine ⟨fun list' hrun => ?_, fun e hrun fuel hfuel => ?_⟩
      · obtain ⟨h', hlist', hcalls⟩ := (ih hlist₁).1 list' hrun
        refine ⟨h', hlist', fun fuel hfuel => ?_⟩
        rw [hrest fuel hfuel]
        exact hcalls fuel (by omega)
      · rw [hrest fuel hfuel]
        exact (ih hlist₁).2 e hrun fuel (by omega)

/-- What some calls have built, or the fault that one of them is. -/
def AddCall.Built (calls : List AddCall) : Prop :=
  if ∀ call ∈ calls, call.Addable then
    ∃ h' list, (∀ fuel > calls.length, AddCall.runNodes fuel calls .empty = .ok (some h')) ∧
      h'.Holds list ∧ StableSort Negotiate.q (calls.map AddCall.entry) list
  else ∃ e, ∀ fuel > calls.length, AddCall.runNodes fuel calls .empty = .error e

/-- Sorting a linked list terminates with its nodes linked in decreasing order of their
qualities, those of one quality in their old order; and so is a list that is built call by
call. -/
theorem redhttpNegotiateSortNodes_stable (h : NodeList) (nodes : List ℕ)
    (hchain : Chain h.next h.first nodes none) :
    (∃ h' nodes', (∀ fuel > nodes.length, redhttpNegotiateSortNodes fuel h = .ok (some h')) ∧
      Chain h'.next h'.first nodes' none ∧ StableSort h.q nodes nodes' ∧
      h'.entry = h.entry ∧ ∀ n ∉ nodes, h'.next n = h.next n) ∧
    ∀ calls : List AddCall, AddCall.Built calls := by
  refine ⟨?_, fun calls => ?_⟩
  · obtain ⟨h', hrun, hchain', hentry, -, hframe⟩ := redhttpNegotiateSortNodes_apply hchain
    exact ⟨h', _, hrun, hchain', stableSort_bubbleSort nodes, hentry, hframe⟩
  · rw [AddCall.Built]
    have hnodes := AddCall.runNodes_apply calls NodeList.holds_empty
    rw [List.length_nil, Nat.zero_add] at hnodes
    split
    · next haddable =>
      have hnil : StableSort Negotiate.q [] [] := StableSort.refl List.Pairwise.nil
      obtain ⟨list, hrun, hstable⟩ := AddCall.run_stable haddable hnil
      obtain ⟨h', hholds, hcalls⟩ := hnodes.1 list hrun
      exact ⟨h', list, hcalls, hholds, hstable⟩
    · next hnot =>
      obtain ⟨e, hrun⟩ := AddCall.run_of_not hnot []
      exact ⟨e, hnodes.2 e hrun⟩

/-- Three nodes at 4, 7 and 2. -/
theorem redhttpNegotiateSortNodes_stable_three :
    ∃ h : NodeList, Chain h.next h.first [4, 7, 2] none ∧
      ∃ h' nodes', (∀ fuel > 3, redhttpNegotiateSortNodes fuel h = .ok (some h')) ∧
        Chain h'.next h'.first nodes' none ∧ StableSort h.q [4, 7, 2] nodes' := by
  let h : NodeList :=
    { next := fun n => if n = 4 then some 7 else if n = 7 then some 2 else none
      entry := fun n => ⟨CString.lit "text/html", n⟩
      free := 8
      first := some 4 }
  have hchain : Chain h.next h.first [4, 7, 2] none := by simp [h]
  obtain ⟨⟨h', nodes', hrun, hchain', hstable, -⟩, -⟩ :=
    redhttpNegotiateSortNodes_stable h [4, 7, 2] hchain
  exact ⟨h, hchain, h', nodes', hrun, hchain', hstable⟩

end RedStore.RedHttp
