/-
What a negotiation chooses.

An offer is an entry of the server with one of the client that it meets, and its score is the
product of their qualities.  The loops of `redhttp_negotiate_choose` leave the entries of the
client at the first one that improves the score.  On a list that is sorted by quality nothing
is lost by that: the choice is the best of all offers, the first one of several.  On any list
the choice is something that the client takes as soon as some offer has a positive score.
-/
import RedStore.CLib.FirstBest
import RedStore.RedHttp.NegotiateSort

namespace RedStore.RedHttp
open CLib

/-! ### Offers -/

/-- The entries of the client that a type meets. -/
def meets (client : List Negotiate) (type : CString) : List Negotiate :=
  client.filter fun c => redhttpNegotiateCompareTypes type c.type

/-- The offers, by the entries of the server and then of the client. -/
def offers (server client : List Negotiate) : List (Negotiate × Negotiate) :=
  server.flatMap fun s => (meets client s.type).map fun c => (s, c)

/-- The score of an offer. -/
def offerScore (offer : Negotiate × Negotiate) : ℕ := offer.1.q * offer.2.q

/-- The type that a scan of all offers ends with. -/
def exhaustiveChoice (server client : List Negotiate) : Option CString :=
  ((offers server client).argmax offerScore).map fun offer => offer.1.type

lemma mem_meets {client : List Negotiate} {type : CString} {c : Negotiate} :
    c ∈ meets client type ↔ c ∈ client ∧ redhttpNegotiateCompareTypes type c.type = true := by
  simp [meets]

/-- An entry of the server attains the greatest score there is. -/
def Attains (server client : List Negotiate) (s : Negotiate) : Prop :=
  ∃ c ∈ meets client s.type, ∀ s' ∈ server, ∀ c' ∈ meets client s'.type, s'.q * c'.q ≤ s.q * c.q

/-- It is the first one that does. -/
def FirstAttaining (server client : List Negotiate) (s : Negotiate) : Prop :=
  ∃ front rest, server = front ++ s :: rest ∧ Attains server client s ∧
    ∀ s' ∈ front, ¬ Attains server client s'

/-- The best offer is one of the first entry that attains the greatest score. -/
lemma firstAttaining_of_firstBest {server client : List Negotiate} {s c : Negotiate}
    (h : FirstBest offerScore (offers server client) (s, c)) : FirstAttaining server client s := by
  have hle := h.le
  rw [offers, firstBest_flatMap] at h
  obtain ⟨front, s', rest, rfl, hbest, hfront, -⟩ := h
  obtain ⟨c', hc', heq⟩ := firstBest_map.mp hbest
  obtain ⟨rfl, rfl⟩ := Prod.mk.inj heq
  have hmax : ∀ s ∈ front ++ s' :: rest, ∀ c ∈ meets client s.type, s.q * c.q ≤ s'.q * c'.q := by
    intro s hs c hc
    exact hle (s, c) (List.mem_flatMap.mpr ⟨s, hs, List.mem_map.mpr ⟨c, hc, rfl⟩⟩)
  refine ⟨front, rest, rfl, ⟨c', hc'.mem, hmax⟩, ?_⟩
  rintro s hs ⟨c, hc, hall⟩
  have hlt : s.q * c.q < s'.q * c'.q :=
    hfront s hs (s, c) (List.mem_map.mpr ⟨c, hc, rfl⟩)
  exact absurd (hall s' (by simp) c' hc'.mem) (not_le.mpr hlt)

/-! ### Sorted clients -/

section Sorted

variable {client : List Negotiate} (hclient : client.Pairwise fun a b => b.q ≤ a.q)
include hclient

/-- Of a sorted client the inner loop decides at the first entry that the type meets. -/
lemma betterScore_of_sorted (best : ℤ) (s : Negotiate) : betterScore best s client =
    (meets client s.type).head?.bind fun c =>
      if best < (s.q * c.q : ℕ) then some ((s.q * c.q : ℕ) : ℤ) else none := by
  induction client with
  | nil => rfl
  | cons c client ih =>
    rw [List.pairwise_cons] at hclient
    rw [betterScore]
    by_cases hmeets : redhttpNegotiateCompareTypes s.type c.type = true
    · have hhead : (meets (c :: client) s.type).head? = some c := by
        simp [meets, hmeets]
      rw [hhead, Option.bind_some]
      by_cases hbest : best < (s.q * c.q : ℕ)
      · simp only [hmeets, hbest, decide_true, Bool.and_self, if_true]
      · -- no later entry has a better quality
        have hnone : betterScore best s client = none := by
          rw [betterScore_eq_none_iff]
          intro c' hc' _
          have hle : s.q * c'.q ≤ s.q * c.q := Nat.mul_le_mul_left _ (hclient.1 c' hc')
          omega
        simp only [hmeets, hbest, decide_false, Bool.and_false, Bool.false_eq_true, if_false, hnone]
    · have hhead : meets (c :: client) s.type = meets client s.type :=
        List.filter_cons_of_neg hmeets
      simp only [hmeets, Bool.false_and, Bool.false_eq_true, if_false, hhead, ih hclient.2]

/-- The loops end with the best offer, if it is better than what they start from. -/
lemma chooseFrom_of_sorted (server : List Negotiate) (best : ℤ) (bestType : Option CString) :
    chooseFrom client server best bestType =
      ((offers server client).argmax offerScore).elim bestType fun offer =>
        if best < offerScore offer then some offer.1.type else bestType := by
  induction server generalizing best bestType with
  | nil => rfl
  | cons s server ih =>
    have hoffers : offers (s :: server) client =
        (meets client s.type).map (fun c => (s, c)) ++ offers server client := by
      rw [offers, List.flatMap_cons, offers]
    have hsorted : (meets client s.type).Pairwise fun a b => b.q ≤ a.q := hclient.filter _
    rw [chooseFrom, betterScore_of_sorted hclient]
    cases hmeets : meets client s.type with
    | nil =>
      rw [hoffers, hmeets, List.map_nil, List.nil_append]
      exact ih best bestType
    | cons c rest =>
      rw [hmeets, List.pairwise_cons] at hsorted
      rw [hmeets, List.map_cons] at hoffers
      have hblock : ((s, c) :: rest.map fun c => (s, c)).argmax offerScore = some (s, c) := by
        rw [argmax_eq_some_iff_firstBest, firstBest_cons]
        refine Or.inl ⟨rfl, ?_⟩
        rw [List.forall_mem_map]
        exact fun c' hc' => Nat.mul_le_mul_left _ (hsorted.1 c' hc')
      have hscore : offerScore (s, c) = s.q * c.q := rfl
      simp only [List.head?_cons, Option.bind_some]
      cases hrest : (offers server client).argmax offerScore with
      | none =>
        have hnil := List.argmax_eq_none.mp hrest
        rw [hoffers, hnil, List.append_nil, hblock, Option.elim_some, hscore]
        by_cases hbest : best < (s.q * c.q : ℕ)
        · simp only [hbest, if_true, ih, hrest, Option.elim_none]
        · simp only [hbest, if_false, ih, hrest, Option.elim_none]
      | some offer =>
        rw [hoffers, argmax_append_of_some hblock hrest, hscore]
        by_cases hbest : best < (s.q * c.q : ℕ)
        · simp only [hbest, if_true, ih, hrest, Option.elim_some, Int.ofNat_lt]
          by_cases hlt : s.q * c.q < offerScore offer
          · have hless : best < (offerScore offer : ℤ) := by omega
            simp only [hlt, if_true, Option.elim_some, hless]
          · simp only [hlt, if_false, Option.elim_some, hscore, hbest, if_true]
        · simp only [hbest, if_false, ih, hrest, Option.elim_some]
          by_cases hlt : s.q * c.q < offerScore offer
          · simp only [hlt, if_true, Option.elim_some]
          · have hmore : ¬ best < (offerScore offer : ℤ) := by omega
            simp only [hlt, if_false, Option.elim_some, hscore, hbest, hmore]

/-- On a sorted client the early exit loses nothing. -/
lemma redhttpNegotiateChoose_of_sorted (server : List Negotiate) :
    redhttpNegotiateChoose server client = exhaustiveChoice server client := by
  rw [redhttpNegotiateChoose, chooseFrom_of_sorted hclient, exhaustiveChoice]
  cases (offers server client).argmax offerScore with
  | none => rfl
  | some offer =>
    have hless : (-1 : ℤ) < offerScore offer := by omega
    rw [Option.elim_some, if_pos hless, Option.map_some]

end Sorted

/-! ### Lists that are built -/

lemma AddCall.run_decreasing {calls : List AddCall} {list : List Negotiate}
    (h : AddCall.run calls [] = .ok list) : list.Pairwise fun a b => b.q ≤ a.q := by
  by_cases haddable : ∀ call ∈ calls, call.Addable
  · have hnil : StableSort Negotiate.q [] [] := StableSort.refl List.Pairwise.nil
    obtain ⟨list', hrun, hstable⟩ := AddCall.run_stable haddable hnil
    obtain rfl : list' = list := Except.ok.inj (hrun.symm.trans h)
    exact hstable.decreasing
  · obtain ⟨e, hrun⟩ := AddCall.run_of_not haddable []
    rw [hrun] at h
    cases h

/-- Parsing builds a list call by call. -/
lemma parseItems_run {s : List UInt8} {first list : List Negotiate}
    (h : parseItems s first = .ok list) : ∃ calls, AddCall.run calls first = .ok list := by
  induction s using delimited_induction (ch ',') generalizing first with
  | last item hitem =>
    rw [parseItems_last hitem] at h
    exact ⟨[⟨itemType item, (parseItem item).2⟩], AddCall.run_cons_of_ok h []⟩
  | more item rest hitem ih =>
    rw [parseItems_more hitem] at h
    cases hadd : redhttpNegotiateAdd first (itemType item)
        (parseItem (item ++ ch ',' :: rest)).2 with
    | error e => simp [hadd, bind, Except.bind] at h
    | ok first' =>
      rw [hadd] at h
      obtain ⟨calls, hcalls⟩ := ih h
      let call : AddCall := ⟨itemType item, (parseItem (item ++ ch ',' :: rest)).2⟩
      have hcall : AddCall.run (call :: calls) first = AddCall.run calls first' :=
        AddCall.run_cons_of_ok hadd calls
      exact ⟨call :: calls, hcall.trans hcalls⟩

lemma redhttpNegotiateParse_run {str : Option CString} {list : List Negotiate}
    (h : redhttpNegotiateParse str = .ok list) : ∃ calls, AddCall.run calls [] = .ok list := by
  cases str with
  | none => exact ⟨[], h⟩
  | some s =>
    rw [redhttpNegotiateParse] at h
    split at h
    · exact ⟨[], h⟩
    · exact parseItems_run h

lemma redhttpNegotiateParse_decreasing {str : Option CString} {list : List Negotiate}
    (h : redhttpNegotiateParse str = .ok list) : list.Pairwise fun a b => b.q ≤ a.q := by
  obtain ⟨calls, hcalls⟩ := redhttpNegotiateParse_run h
  exact AddCall.run_decreasing hcalls

/-! ### The best offer -/

/-- There is an offer with a positive score. -/
def SomePositive (server client : List Negotiate) : Prop :=
  ∃ s ∈ server, ∃ c ∈ meets client s.type, 0 < s.q * c.q

/-- A positive offer makes the best one exist, with an entry that is first to attain its
score. -/
lemma exhaustiveChoice_of_positive {server client : List Negotiate}
    (h : SomePositive server client) :
    ∃ s, exhaustiveChoice server client = some s.type ∧ FirstAttaining server client s := by
  obtain ⟨s, hs, c, hc, -⟩ := h
  have hmem : (s, c) ∈ offers server client :=
    List.mem_flatMap.mpr ⟨s, hs, List.mem_map.mpr ⟨c, hc, rfl⟩⟩
  obtain ⟨⟨s', c'⟩, hbest⟩ := Option.ne_none_iff_exists'.mp fun hnone =>
    List.ne_nil_of_mem hmem (List.argmax_eq_none (f := offerScore).mp hnone)
  refine ⟨s', by rw [exhaustiveChoice, hbest, Option.map_some], ?_⟩
  exact firstAttaining_of_firstBest (argmax_eq_some_iff_firstBest.mp hbest)

/-- Against a client that has been built, the choice is that of a scan of all offers: the type
of the first entry of the server with the greatest score. -/
theorem redhttpNegotiateChoose_exhaustive (server client : List Negotiate) (calls : List AddCall)
    (hclient : AddCall.run calls [] = .ok client) (hpositive : SomePositive server client) :
    redhttpNegotiateChoose server client = exhaustiveChoice server client ∧
      ∃ s, redhttpNegotiateChoose server client = some s.type ∧
        FirstAttaining server client s := by
  have hscan := redhttpNegotiateChoose_of_sorted (AddCall.run_decreasing hclient) server
  obtain ⟨s, hs, hfirst⟩ := exhaustiveChoice_of_positive hpositive
  exact ⟨hscan, s, hscan.trans hs, hfirst⟩

/-- A client with a type and the wildcard at one quality. -/
theorem redhttpNegotiateChoose_exhaustive_wildcard :
    ∃ client, AddCall.run [⟨bytesOf "text/plain", 5⟩, ⟨bytesOf "*/*", 5⟩] [] = .ok client ∧
      ∃ s, redhttpNegotiateChoose [⟨CString.lit "text/html", 4⟩, ⟨CString.lit "text/plain", 8⟩]
          client = some s.type ∧
        FirstAttaining [⟨CString.lit "text/html", 4⟩, ⟨CString.lit "text/plain", 8⟩] client s := by
  have hpositive : SomePositive [⟨CString.lit "text/html", 4⟩, ⟨CString.lit "text/plain", 8⟩]
      [⟨CString.lit "text/plain", 5⟩, ⟨CString.lit "*/*", 5⟩] :=
    ⟨⟨CString.lit "text/plain", 8⟩, by decide, ⟨CString.lit "text/plain", 5⟩, by decide, by decide⟩
  have hrun : AddCall.run [⟨bytesOf "text/plain", 5⟩, ⟨bytesOf "*/*", 5⟩] [] =
      .ok [⟨CString.lit "text/plain", 5⟩, ⟨CString.lit "*/*", 5⟩] := by decide
  exact ⟨_, hrun, (redhttpNegotiateChoose_exhaustive _ _ _ hrun hpositive).2⟩

/-! ### What the client refuses -/

/-- The client takes the type: some entry that the type meets has a quality. -/
def Taken (client : List Negotiate) (type : CString) : Prop :=
  ∃ c ∈ meets client type, 0 < c.q

instance (client : List Negotiate) (type : CString) : Decidable (Taken client type) :=
  inferInstanceAs (Decidable (∃ c ∈ meets client type, _))

/-- The first entry of the server that meets one of the client. -/
def firstMet (server client : List Negotiate) : Option Negotiate :=
  server.find? fun s => !(meets client s.type).isEmpty

lemma betterScore_mem {best score : ℤ} {s : Negotiate} {client : List Negotiate}
    (h : betterScore best s client = some score) :
    ∃ c ∈ meets client s.type, score = (s.q * c.q : ℕ) ∧ best < score := by
  induction client with
  | nil => cases h
  | cons c client ih =>
    rw [betterScore] at h
    split at h
    · next hbetter =>
      rw [Bool.and_eq_true, decide_eq_true_eq] at hbetter
      obtain rfl := Option.some.inj h
      exact ⟨c, mem_meets.mpr ⟨by simp, hbetter.1⟩, rfl, hbetter.2⟩
    · obtain ⟨c', hc', hscore⟩ := ih h
      rw [mem_meets] at hc'
      exact ⟨c', mem_meets.mpr ⟨by simp [hc'.1], hc'.2⟩, hscore⟩

lemma taken_of_positive {client : List Negotiate} {s c : Negotiate}
    (hc : c ∈ meets client s.type) (h : 0 < s.q * c.q) : Taken client s.type :=
  ⟨c, hc, Nat.pos_of_mul_pos_left h⟩

/-- From a type that the client takes the loops go on to others that it takes. -/
lemma chooseFrom_of_taken {client : List Negotiate} (server : List Negotiate) {best : ℤ}
    {type : CString} (hbest : 0 ≤ best) (htype : Taken client type) :
    ∃ t, chooseFrom client server best (some type) = some t ∧ Taken client t := by
  induction server generalizing best type with
  | nil => exact ⟨type, rfl, htype⟩
  | cons s server ih =>
    rw [chooseFrom]
    split
    · next score hscore =>
      obtain ⟨c, hc, rfl, hlt⟩ := betterScore_mem hscore
      exact ih (by omega) (taken_of_positive hc (by omega))
    · exact ih hbest htype

/-- When some offer has a positive score the loops end with a type that the client takes, also
where the early exit passes over that offer. -/
lemma chooseFrom_of_positive {server client : List Negotiate} (h : SomePositive server client)
    {best : ℤ} {bestType : Option CString}
    (hbest : 0 < best → ∃ t, bestType = some t ∧ Taken client t) :
    ∃ t, chooseFrom client server best bestType = some t ∧ Taken client t := by
  induction server generalizing best bestType with
  | nil =>
    obtain ⟨s, hs, -⟩ := h
    cases hs
  | cons s server ih =>
    obtain ⟨s', hs', c, hc, hpos⟩ := h
    rw [chooseFrom]
    split
    · next score hscore =>
      obtain ⟨c', hc', rfl, -⟩ := betterScore_mem hscore
      by_cases hscored : 0 < s.q * c'.q
      · exact chooseFrom_of_taken server (by omega) (taken_of_positive hc' hscored)
      · rcases List.mem_cons.mp hs' with rfl | hs'
        · exact chooseFrom_of_taken server (by omega) (taken_of_positive hc hpos)
        · exact ih ⟨s', hs', c, hc, hpos⟩ fun hlt => by omega
    · next hnone =>
      rcases List.mem_cons.mp hs' with rfl | hs'
      · -- this entry was not better, so that there is one already that was
        rw [mem_meets] at hc
        have hle := betterScore_eq_none_iff.mp hnone c hc.1 hc.2
        obtain ⟨t, rfl, ht⟩ := hbest (by omega)
        exact chooseFrom_of_taken server (by omega) ht
      · exact ih ⟨s', hs', c, hc, hpos⟩ hbest

/-- Without a positive score nothing follows the first entry that meets the client. -/
lemma chooseFrom_of_not_positive {server client : List Negotiate}
    (h : ¬ SomePositive server client) :
    redhttpNegotiateChoose server client = (firstMet server client).map Negotiate.type := by
  have hnone : ∀ {s : Negotiate} {best : ℤ}, 0 ≤ best →
      (∀ c ∈ meets client s.type, s.q * c.q = 0) → betterScore best s client = none := by
    intro s best hbest hzero
    rw [betterScore_eq_none_iff]
    intro c hc hmeets
    have := hzero c (mem_meets.mpr ⟨hc, hmeets⟩)
    omega
  have hstay : ∀ server : List Negotiate, ¬ SomePositive server client → ∀ type : CString,
      chooseFrom client server 0 (some type) = some type := by
    intro server
    induction server with
    | nil => exact fun _ _ => rfl
    | cons s server ih =>
      intro hnot type
      have hzero : ∀ c ∈ meets client s.type, s.q * c.q = 0 := by
        intro c hc
        by_contra hne
        exact hnot ⟨s, by simp, c, hc, Nat.pos_of_ne_zero hne⟩
      have hrest : ¬ SomePositive server client := by
        rintro ⟨s', hs', hoffer⟩
        exact hnot ⟨s', by simp [hs'], hoffer⟩
      rw [chooseFrom, hnone le_rfl hzero]
      exact ih hrest type
  rw [redhttpNegotiateChoose]
  induction server with
  | nil => rfl
  | cons s server ih =>
    have hrest : ¬ SomePositive server client := by
      rintro ⟨s', hs', hoffer⟩
      exact h ⟨s', by simp [hs'], hoffer⟩
    rw [chooseFrom, firstMet, List.find?_cons]
    cases hscore : betterScore (-1) s client with
    | none =>
      have hnil : meets client s.type = [] := by
        rw [betterScore_eq_none_iff] at hscore
        rw [List.eq_nil_iff_forall_not_mem]
        intro c hc
        have := hscore c (mem_meets.mp hc).1 (mem_meets.mp hc).2
        omega
      simp only [hnil, List.isEmpty_nil, Bool.not_true]
      exact ih hrest
    | some score =>
      obtain ⟨c, hc, rfl, -⟩ := betterScore_mem hscore
      have hzero : s.q * c.q = 0 := by
        by_contra hne
        exact h ⟨s, by simp, c, hc, Nat.pos_of_ne_zero hne⟩
      have hne : (meets client s.type).isEmpty = false := by
        rw [List.isEmpty_eq_false_iff]
        exact List.ne_nil_of_mem hc
      simp only [hne, Bool.not_false, Option.map_some, hzero]
      exact hstay server hrest s.type

/-- The choice is one that the client takes exactly when some offer has a positive score or the
client takes the first type that it names at all. -/
lemma redhttpNegotiateChoose_taken_iff (server client : List Negotiate) :
    (∀ t, redhttpNegotiateChoose server client = some t → Taken client t) ↔
      SomePositive server client ∨ ∀ s ∈ firstMet server client, Taken client s.type := by
  by_cases hpositive : SomePositive server client
  · simp only [hpositive, true_or, iff_true]
    obtain ⟨t, ht, htaken⟩ : ∃ t, redhttpNegotiateChoose server client = some t ∧
        Taken client t := chooseFrom_of_positive hpositive fun hlt => by omega
    intro t' ht'
    obtain rfl : t = t' := Option.some.inj (ht.symm.trans ht')
    exact htaken
  · simp only [hpositive, false_or, chooseFrom_of_not_positive hpositive]
    cases firstMet server client with
    | none => simp
    | some s => simp

end RedStore.RedHttp
