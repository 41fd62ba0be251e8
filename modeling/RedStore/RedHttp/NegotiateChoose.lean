/-
What a negotiation chooses from.

Parsing an Accept header whose items all name something keeps the types of the items, in an
order that depends on their qualities.  A choice is made exactly when some type of the
server meets some type of the client: every score is above the -1 that the search starts
from.
-/
import RedStore.CLib.StableSort
import RedStore.RedHttp.Negotiate

namespace RedStore.RedHttp
open CLib

/-! ### Sorting -/

/-- The passes on lists of entries are those of bubble sort. -/
lemma sortPass_eq (a : Negotiate) (list : List Negotiate) :
    sortPass a list = bubblePass Negotiate.q a list := by
  induction list generalizing a with
  | nil => rfl
  | cons b rest ih => rw [sortPass, bubblePass, ih a, ih b]

lemma sortPasses_eq (n : ℕ) (list : List Negotiate) :
    sortPasses n list = bubblePasses Negotiate.q n list := by
  induction n generalizing list with
  | zero => cases list <;> rfl
  | succ n ih =>
    cases list with
    | nil => rfl
    | cons first rest => rw [sortPasses, bubblePasses, ih, sortPass_eq]

/-- The sort of a list of entries is stable. -/
theorem stableSort_redhttpNegotiateSort (list : List Negotiate) :
    StableSort Negotiate.q list (redhttpNegotiateSort list) := by
  rw [redhttpNegotiateSort, sortPasses_eq]
  exact stableSort_bubbleSort list

lemma redhttpNegotiateSort_perm (list : List Negotiate) :
    (redhttpNegotiateSort list).Perm list := (stableSort_redhttpNegotiateSort list).perm

/-! ### The items of a header -/

/-- The items of a header: what stands between its commas. -/
def negotiateItems (s : List UInt8) : List (List UInt8) := s.splitOnP (· == ch ',')

/-- The type of an item, up to its first semicolon. -/
def itemType (item : List UInt8) : List UInt8 := item.takeWhile (· != ch ';')

/-- An item names something: some character in front of its first semicolon is not white
space. -/
def ItemNamed (item : List UInt8) : Prop := ∃ c ∈ itemType item, isspace c = false

instance (item : List UInt8) : Decidable (ItemNamed item) :=
  inferInstanceAs (Decidable (∃ c ∈ itemType item, _))

/-- The type of an item without the white space around it. -/
def trimmedType (item : List UInt8) : CString :=
  CString.ofBytes (((itemType item).dropWhile isspace).rdropWhile isspace)

lemma redhttpNegotiateRound_le {d : ℚ} (h : d ≤ 1) : redhttpNegotiateRound (d * 10) ≤ 10 := by
  have hfloor : ⌊d * 10 + 1 / 2⌋ < 11 := by
    rw [Int.floor_lt]
    push_cast
    linarith
  rw [redhttpNegotiateRound]
  omega

lemma qualityAt_le (s : List UInt8) {q : ℕ} (hq : q ≤ 10) : qualityAt s q ≤ 10 := by
  unfold qualityAt
  split
  · split
    · split
      · split
        · next h => exact redhttpNegotiateRound_le h.2
        · exact hq
      · exact hq
    · exact hq
  · exact hq

lemma scanQuality_le (left : ℕ) (s : List UInt8) {q : ℕ} (hq : q ≤ 10) :
    scanQuality left s q ≤ 10 := by
  induction left generalizing s q with
  | zero => cases s <;> exact hq
  | succ left ih =>
    cases s with
    | nil => exact hq
    | cons c s =>
      rw [scanQuality]
      split
      · exact ih s (qualityAt_le _ hq)
      · exact hq

/-- An item that names something is added under its trimmed type. -/
lemma redhttpNegotiateAdd_of_named {item : List UInt8} (h : ItemNamed item)
    (first : List Negotiate) {q : ℕ} (hq : q ≤ 10) :
    redhttpNegotiateAdd first (itemType item) q =
      .ok (redhttpNegotiateSort (first ++ [⟨trimmedType item, q⟩])) := by
  obtain ⟨c, hc, hspace⟩ := h
  have hlen : ¬ ((itemType item).length = 0 ∨ 10 < q) := by
    rw [not_or, List.length_eq_zero_iff]
    exact ⟨List.ne_nil_of_mem hc, by omega⟩
  have hne : (itemType item).dropWhile isspace ≠ [] := by
    rw [ne_eq, List.dropWhile_eq_nil_iff]
    intro hall
    simp [hall c hc] at hspace
  rw [redhttpNegotiateAdd, if_neg hlen, trimType]
  simp only [hne, if_false]
  rfl

/-! ### Item by item -/

lemma negotiateItems_last {item : List UInt8} (hitem : ch ',' ∉ item) :
    negotiateItems item = [item] :=
  List.splitOnP_eq_singleton fun _ hc => beq_eq_false_iff_ne.mpr (ne_of_mem_of_not_mem hc hitem)

lemma negotiateItems_more {item : List UInt8} (hitem : ch ',' ∉ item) (rest : List UInt8) :
    negotiateItems (item ++ ch ',' :: rest) = item :: negotiateItems rest :=
  List.splitOnP_append_cons_of_forall_mem
    (fun c hc => beq_eq_false_iff_ne.mpr (ne_of_mem_of_not_mem hc hitem)) _ (by simp) rest

lemma parseItem_quality_le (s : List UInt8) : (parseItem s).2 ≤ 10 := scanQuality_le _ _ le_rfl

/-- The last item of a header is added, and nothing follows. -/
lemma parseItems_last {item : List UInt8} (hitem : ch ',' ∉ item) (first : List Negotiate) :
    parseItems item first = redhttpNegotiateAdd first (itemType item) (parseItem item).2 := by
  have htake : item.takeWhile (· != ch ',') = item := takeWhile_bne_eq_self_iff.mpr hitem
  have htype : (parseItem item).1 = itemType item := by rw [parseItem, htake, itemType]
  have hdrop : item.drop (itemLength item) = [] := by rw [itemLength, htake, List.drop_length]
  rw [← htype]
  cases hadd : redhttpNegotiateAdd first (parseItem item).1 (parseItem item).2 with
  | error e => rw [parseItems_of_error hadd]
  | ok first' => rw [parseItems_of_ok hadd, hdrop]

/-- An item in front of a comma is added, and then the others. -/
lemma parseItems_more {item : List UInt8} (hitem : ch ',' ∉ item) (rest : List UInt8)
    (first : List Negotiate) :
    parseItems (item ++ ch ',' :: rest) first =
      redhttpNegotiateAdd first (itemType item) (parseItem (item ++ ch ',' :: rest)).2 >>=
        parseItems rest := by
  have htake : (item ++ ch ',' :: rest).takeWhile (· != ch ',') = item := by
    rw [takeWhile_bne_append hitem]
    simp
  have htype : (parseItem (item ++ ch ',' :: rest)).1 = itemType item := by
    rw [parseItem, htake, itemType]
  have hdrop : (item ++ ch ',' :: rest).drop (itemLength (item ++ ch ',' :: rest)) =
      ch ',' :: rest := by rw [itemLength, htake, List.drop_left]
  rw [← htype]
  cases hadd : redhttpNegotiateAdd first (parseItem (item ++ ch ',' :: rest)).1
      (parseItem (item ++ ch ',' :: rest)).2 with
  | error e => exact parseItems_of_error hadd
  | ok first' =>
    rw [parseItems_of_ok hadd, hdrop]
    rfl

/-- Parsing adds one entry for each item, under the trimmed types. -/
theorem parseItems_types (s : List UInt8) (first : List Negotiate)
    (h : ∀ item ∈ negotiateItems s, ItemNamed item) :
    ∃ list, parseItems s first = .ok list ∧
      (list.map Negotiate.type).Perm
        (first.map Negotiate.type ++ (negotiateItems s).map trimmedType) := by
  have hadd : ∀ first item, ItemNamed item → ∀ q, q ≤ 10 → ∃ first',
      redhttpNegotiateAdd first (itemType item) q = .ok first' ∧
      (first'.map Negotiate.type).Perm (first.map Negotiate.type ++ [trimmedType item]) := by
    intro first item hitem q hq
    refine ⟨_, redhttpNegotiateAdd_of_named hitem first hq, ?_⟩
    have hperm := (redhttpNegotiateSort_perm (first ++ [⟨trimmedType item, q⟩])).map
      Negotiate.type
    rwa [List.map_append] at hperm
  induction s using delimited_induction (ch ',') generalizing first with
  | last item hitem =>
    rw [negotiateItems_last hitem, List.forall_mem_singleton] at h
    rw [negotiateItems_last hitem, parseItems_last hitem]
    exact hadd first item h _ (parseItem_quality_le _)
  | more item rest hitem ih =>
    rw [negotiateItems_more hitem, List.forall_mem_cons] at h
    obtain ⟨first', hfirst', hperm'⟩ := hadd first item h.1 _
      (parseItem_quality_le (item ++ ch ',' :: rest))
    obtain ⟨list, hlist, hperm⟩ := ih first' h.2
    refine ⟨list, ?_, ?_⟩
    · rw [parseItems_more hitem, hfirst']
      exact hlist
    · rw [negotiateItems_more hitem, List.map_cons, ← List.singleton_append,
        ← List.append_assoc]
      exact hperm.trans (hperm'.append_right _)

/-- A header whose items all name something can be parsed. -/
lemma exists_redhttpNegotiateParse {s : CString}
    (h : ∀ item ∈ negotiateItems s.bytes, ItemNamed item) :
    ∃ list, redhttpNegotiateParse (some s) = .ok list := by
  rw [redhttpNegotiateParse]
  split
  · exact ⟨[], rfl⟩
  · obtain ⟨list, hlist, -⟩ := parseItems_types s.bytes [] h
    exact ⟨list, hlist⟩

/-! ### The choice -/

lemma betterScore_eq_none_iff {best : ℤ} {s : Negotiate} {client : List Negotiate} :
    betterScore best s client = none ↔
      ∀ c ∈ client, redhttpNegotiateCompareTypes s.type c.type = true →
        ((s.q * c.q : ℕ) : ℤ) ≤ best := by
  induction client with
  | nil => simp [betterScore]
  | cons c client ih =>
    rw [betterScore]
    split
    · next h =>
      simp only [Bool.and_eq_true, decide_eq_true_eq] at h
      simp only [reduceCtorEq, List.mem_cons, forall_eq_or_imp, h.1, forall_true_left, false_iff,
        not_and]
      intro hle
      omega
    · next h =>
      simp only [Bool.and_eq_true, decide_eq_true_eq, not_and] at h
      rw [ih]
      simp only [List.mem_cons, forall_eq_or_imp]
      constructor
      · exact fun hall => ⟨fun hc => by have := h hc; omega, hall⟩
      · exact fun hall => hall.2

lemma chooseFrom_ne_none (client : List Negotiate) (server : List Negotiate) (best : ℤ)
    (type : CString) : chooseFrom client server best (some type) ≠ none := by
  induction server generalizing best type with
  | nil => simp [chooseFrom]
  | cons s server ih =>
    rw [chooseFrom]
    split
    · exact ih _ _
    · exact ih _ _

/-- Nothing is chosen exactly when no type of the server meets a type of the client. -/
theorem redhttpNegotiateChoose_eq_none_iff {server client : List Negotiate} :
    redhttpNegotiateChoose server client = none ↔
      ∀ s ∈ server, ∀ c ∈ client, redhttpNegotiateCompareTypes s.type c.type = false := by
  rw [redhttpNegotiateChoose]
  induction server with
  | nil => simp [chooseFrom]
  | cons s server ih =>
    rw [chooseFrom]
    split
    · next score hscore =>
      have hne : betterScore (-1) s client ≠ none := by simp [hscore]
      rw [ne_eq, betterScore_eq_none_iff] at hne
      push Not at hne
      obtain ⟨c, hc, hmeets, -⟩ := hne
      simp only [chooseFrom_ne_none, false_iff]
      intro hall
      simp [hall s (by simp) c hc] at hmeets
    · next hscore =>
      rw [betterScore_eq_none_iff] at hscore
      have hno : ∀ c ∈ client, redhttpNegotiateCompareTypes s.type c.type = false := by
        intro c hc
        by_contra hmeets
        have := hscore c hc (by simpa using hmeets)
        omega
      rw [ih, List.forall_mem_cons]
      exact ⟨fun h => ⟨hno, h⟩, fun h => h.2⟩

end RedStore.RedHttp
