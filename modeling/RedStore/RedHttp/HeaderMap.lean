/-
A header list is an ordered multimap.

Two keys are the same for `redhttp_strcasecmp` if they differ in the case of letters alone, and
what the functions of `headers.c` do with a list are the operations of a multimap whose keys are
folded to lower case.  The functions that count are given here as they walk the list.
-/
import RedStore.CLib.Multimap
import RedStore.RedHttp.Headers

namespace RedStore.RedHttp
open CLib

/-! ### Keys -/

/-- A key without regard to case. -/
def foldKey (key : CString) : List UInt8 := key.bytes.map tolower

lemma tolower_ne_zero {c : UInt8} (h : c ≠ 0) : tolower c ≠ 0 := by
  revert h
  exact forall_uint8 (p := fun c => c ≠ 0 → tolower c ≠ 0) (by decide +kernel) c

/-- The comparison finds no difference in strings that are the same without regard to case. -/
lemma redhttpStrcasecmp_eq_zero_iff {s t : List UInt8} (hs : (0 : UInt8) ∉ s)
    (ht : (0 : UInt8) ∉ t) : redhttpStrcasecmp s t = 0 ↔ s.map tolower = t.map tolower := by
  have hpositive : ∀ {c : UInt8} {u : List UInt8}, (0 : UInt8) ∉ c :: u →
      (tolower c).toNat ≠ 0 := by
    intro c u hu hzero
    exact tolower_ne_zero (fun hc => hu (hc ▸ List.mem_cons_self)) (UInt8.toNat_inj.mp hzero)
  induction s generalizing t with
  | nil =>
    cases t with
    | nil => simp [redhttpStrcasecmp]
    | cons b t =>
      have := hpositive ht
      simp [redhttpStrcasecmp, this]
  | cons a s ih =>
    cases t with
    | nil =>
      have := hpositive hs
      simp [redhttpStrcasecmp, this]
    | cons b t =>
      have hrest : redhttpStrcasecmp s t = 0 ↔ s.map tolower = t.map tolower :=
        ih (fun h => hs (List.mem_cons_of_mem _ h)) fun h => ht (List.mem_cons_of_mem _ h)
      have hhead : ((tolower a).toNat : ℤ) - (tolower b).toNat = 0 ↔ tolower a = tolower b := by
        rw [← UInt8.toNat_inj]
        omega
      rw [redhttpStrcasecmp, List.map_cons, List.map_cons, List.cons.injEq, ← hrest]
      by_cases h : tolower a = tolower b
      · rw [if_pos (hhead.mpr h), and_iff_right h]
      · have hr := mt hhead.mp h
        rw [if_neg hr]
        exact iff_of_false hr fun hboth => h hboth.1

lemma sameKey_iff {key key' : CString} : sameKey key key' = true ↔ foldKey key = foldKey key' := by
  rw [sameKey, beq_iff_eq, redhttpStrcasecmp_eq_zero_iff key.nul_free key'.nul_free, foldKey,
    foldKey]

/-! ### Lists -/

/-- The entries of a list. -/
def headerEntries (first : List Header) : List (CString × Option CString) :=
  first.map fun it => (it.key, it.value)

lemma headerEntries_injective : Function.Injective headerEntries :=
  List.map_injective_iff.mpr fun it it' h => by
    cases it
    cases it'
    simpa using h

lemma redhttpHeadersGet_eq (first : List Header) (key : CString) :
    redhttpHeadersGet first key =
      (Multimap.lookup foldKey (headerEntries first) key).join := by
  induction first with
  | nil => rfl
  | cons it rest ih =>
    rw [redhttpHeadersGet, headerEntries, List.map_cons, Multimap.lookup_cons, ih]
    by_cases h : foldKey key = foldKey it.key
    · rw [if_pos (sameKey_iff.mpr h), if_pos h]
      rfl
    · rw [if_neg fun hsame => h (sameKey_iff.mp hsame), if_neg h]
      rfl

lemma redhttpHeadersExists_iff {first : List Header} {key : CString} :
    redhttpHeadersExists first key = true ↔ Multimap.Has foldKey (headerEntries first) key := by
  rw [redhttpHeadersExists_eq_true_iff, headerEntries, Multimap.Has]
  simp [sameKey_iff]

lemma headerEntries_add {first first' : List Header} {key : CString} {value : Option CString}
    (h : redhttpHeadersAdd first key value = .ok first') :
    headerEntries first' = headerEntries first ++ [(key, storedValue value)] := by
  rw [redhttpHeadersAdd] at h
  split at h
  · cases h
  · obtain rfl := Except.ok.inj h
    simp [headerEntries]

lemma headerEntries_set {first first' : List Header} {key : CString} {value : Option CString}
    (h : redhttpHeadersSet first key value = .ok first') :
    headerEntries first' =
      Multimap.assign foldKey key (storedValue value) (headerEntries first) := by
  have hreplace : ∀ first : List Header,
      (∀ headers, redhttpHeadersSet.replace key value first = some headers →
        headerEntries headers =
          Multimap.assign foldKey key (storedValue value) (headerEntries first)) ∧
      (redhttpHeadersSet.replace key value first = none →
        ¬ Multimap.Has foldKey (headerEntries first) key) := by
    intro first
    induction first with
    | nil => simp [redhttpHeadersSet.replace, headerEntries]
    | cons it rest ih =>
      rw [redhttpHeadersSet.replace]
      by_cases hkey : foldKey key = foldKey it.key
      · rw [if_pos (sameKey_iff.mpr hkey)]
        refine ⟨?_, by simp⟩
        rintro headers hheaders
        obtain rfl := Option.some.inj hheaders
        simp [headerEntries, Multimap.assign, hkey]
      · rw [if_neg fun hsame => hkey (sameKey_iff.mp hsame)]
        constructor
        · intro headers hheaders
          obtain ⟨headers', hheaders', rfl⟩ := Option.map_eq_some_iff.mp hheaders
          have := ih.1 headers' hheaders'
          simp only [headerEntries, List.map_cons, Multimap.assign, hkey, if_false] at this ⊢
          rw [this]
        · intro hnone
          have hrest := ih.2 (Option.map_eq_none_iff.mp hnone)
          simpa [headerEntries, hkey] using hrest
  rw [redhttpHeadersSet] at h
  cases hrun : redhttpHeadersSet.replace key value first with
  | some headers =>
    simp only [hrun, Except.ok.injEq] at h
    exact h ▸ (hreplace first).1 headers hrun
  | none =>
    simp only [hrun] at h
    rw [headerEntries_add h, Multimap.assign_of_not_has ((hreplace first).2 hrun)]

/-! ### Counting -/

/-- The loop of `redhttp_headers_count`. -/
def headersCountFrom : List Header → ℕ → ℕ
  | [], count => count
  | _ :: rest, count => headersCountFrom rest (count + 1)

/-- The loop of `redhttp_headers_get_index`. -/
def headersGetIndexFrom (index : ℕ) : List Header → ℕ → Option (CString × Option CString)
  | [], _ => none
  | it :: rest, i =>
    if index = i then some (it.key, it.value) else headersGetIndexFrom index rest (i + 1)

lemma headersCountFrom_eq (first : List Header) (count : ℕ) :
    headersCountFrom first count = count + redhttpHeadersCount first := by
  induction first generalizing count with
  | nil => rfl
  | cons it rest ih =>
    rw [headersCountFrom, ih, redhttpHeadersCount, redhttpHeadersCount, List.length_cons]
    omega

lemma headersGetIndexFrom_eq (index : ℕ) (first : List Header) {i : ℕ} (h : i ≤ index) :
    headersGetIndexFrom index first i = redhttpHeadersGetIndex first (index - i) := by
  induction first generalizing i with
  | nil => rfl
  | cons it rest ih =>
    rw [headersGetIndexFrom]
    by_cases hi : index = i
    · rw [if_pos hi, hi, Nat.sub_self]
      rfl
    · have hpred : index - i = index - (i + 1) + 1 := by omega
      rw [if_neg hi, ih (by omega), hpred]
      rfl

lemma redhttpHeadersGetIndex_eq (first : List Header) (index : ℕ) :
    redhttpHeadersGetIndex first index = (headerEntries first)[index]? := by
  rw [redhttpHeadersGetIndex, headerEntries, List.getElem?_map]

/-! ### Histories -/

/-- A call that changes a header list. -/
inductive HeaderCall where
  | add (key : CString) (value : Option CString)
  | set (key : CString) (value : Option CString)
  | parseLine (line : CString)

namespace HeaderCall

/-- A call whose key is not empty. -/
def Keyed : HeaderCall → Prop
  | .add key _ => key.strlen ≠ 0
  | .set key _ => key.strlen ≠ 0
  | .parseLine line => line.bytes.head? ≠ some (ch ':')

instance : DecidablePred Keyed := fun call => by
  cases call <;> exact inferInstanceAs (Decidable (_ ≠ _))

/-- What a call makes of a list. -/
def apply (first : List Header) : HeaderCall → Except Fault (List Header)
  | .add key value => redhttpHeadersAdd first key value
  | .set key value => redhttpHeadersSet first key value
  | .parseLine line => redhttpHeadersParseLine first line

/-- Some calls, one after the other, on a list that is empty. -/
def run (calls : List HeaderCall) : Except Fault (List Header) := calls.foldlM apply []

end HeaderCall

lemma redhttpHeadersSet_ok {key : CString} (h : key.strlen ≠ 0) (first : List Header)
    (value : Option CString) : ∃ first', redhttpHeadersSet first key value = .ok first' := by
  rw [redhttpHeadersSet]
  cases redhttpHeadersSet.replace key value first with
  | some headers => exact ⟨headers, rfl⟩
  | none => exact ⟨_, redhttpHeadersAdd_of_ne h first value⟩

/-- A call with a key is carried out. -/
lemma HeaderCall.apply_ok {call : HeaderCall} (h : call.Keyed) (first : List Header) :
    ∃ first', call.apply first = .ok first' := by
  cases call with
  | add key value => exact ⟨_, redhttpHeadersAdd_of_ne h first value⟩
  | set key value => exact redhttpHeadersSet_ok h first value
  | parseLine line =>
    rw [HeaderCall.apply, redhttpHeadersParseLine]
    cases hrest : line.bytes.dropWhile (· != ch ':') with
    | nil => exact ⟨first, rfl⟩
    | cons c ptr =>
      dsimp only
      split
      · exact ⟨first, rfl⟩
      · have hkey : (CString.ofBytes (line.bytes.takeWhile (· != ch ':'))).strlen ≠ 0 := by
          have hfree : (0 : UInt8) ∉ line.bytes.takeWhile (· != ch ':') :=
            fun hmem => line.nul_free ((List.takeWhile_sublist _).subset hmem)
          rw [CString.strlen, CString.bytes_ofBytes_of_not_mem hfree]
          cases hbytes : line.bytes with
          | nil => simp [hbytes] at hrest
          | cons b bytes =>
            have hb : b ≠ ch ':' := fun heq => h (by rw [hbytes, heq, List.head?_cons])
            simp [hb]
        exact ⟨_, redhttpHeadersAdd_of_ne hkey first _⟩

lemma HeaderCall.run_ok {calls : List HeaderCall} (h : ∀ call ∈ calls, call.Keyed) :
    ∃ first, HeaderCall.run calls = .ok first := by
  have hrun : ∀ first : List Header, ∃ first', calls.foldlM HeaderCall.apply first = .ok first' := by
    induction calls with
    | nil => exact fun first => ⟨first, rfl⟩
    | cons call calls ih =>
      intro first
      obtain ⟨first', hfirst'⟩ := HeaderCall.apply_ok (h call List.mem_cons_self) first
      obtain ⟨last, hlast⟩ := ih (fun call hcall => h call (List.mem_cons_of_mem _ hcall)) first'
      refine ⟨last, ?_⟩
      rw [List.foldlM_cons, hfirst']
      exact hlast
  exact hrun []

/-! ### The laws -/

/-- What comes of a value: one that is not empty is kept, and an empty one is as good as none. -/
structure KeptAs (value kept : Option CString) : Prop where
  text : ∀ v ∈ value, v.bytes ≠ [] → kept = some v
  empty : (∀ v ∈ value, v.bytes = []) → kept = none

/-- What `redhttp_headers_set` does to a list. -/
structure SetLaw (first : List Header) (key : CString) (value : Option CString)
    (first' : List Header) : Prop where
  /-- The key has the value now, in every spelling. -/
  get_same : ∀ key', foldKey key' = foldKey key → KeptAs value (redhttpHeadersGet first' key')
  get_other : ∀ key', foldKey key' ≠ foldKey key →
    redhttpHeadersGet first' key' = redhttpHeadersGet first key'
  exists_other : ∀ key', foldKey key' ≠ foldKey key →
    redhttpHeadersExists first' key' = redhttpHeadersExists first key'
  keys : redhttpHeadersExists first key = true →
    first'.map Header.key = first.map Header.key
  appended : redhttpHeadersExists first key = false →
    ∃ kept, KeptAs value kept ∧ first' = first ++ [⟨key, kept⟩]

/-- What `redhttp_headers_add` does to a list. -/
structure AddLaw (first : List Header) (key : CString) (value : Option CString)
    (first' : List Header) : Prop where
  appended : ∃ kept, KeptAs value kept ∧ first' = first ++ [⟨key, kept⟩]
  get_same : redhttpHeadersExists first key = true →
    redhttpHeadersGet first' key = redhttpHeadersGet first key

/-- The laws of a multimap, for a list. -/
structure MultimapLaws (first : List Header) : Prop where
  set : ∀ key value, key.strlen ≠ 0 →
    ∃ first', redhttpHeadersSet first key value = .ok first' ∧ SetLaw first key value first'
  add : ∀ key value, key.strlen ≠ 0 →
    ∃ first', redhttpHeadersAdd first key value = .ok first' ∧ AddLaw first key value first'
  index : ∀ i, headersGetIndexFrom i first 0 = (headerEntries first)[i]?
  count : ∀ i, (headersGetIndexFrom i first 0).isSome = true ↔ i < headersCountFrom first 0
  exists_iff : ∀ key, redhttpHeadersExists first key = true ↔
    ∃ i key' value, headersGetIndexFrom i first 0 = some (key', value) ∧
      foldKey key = foldKey key'

lemma keptAs_storedValue (value : Option CString) : KeptAs value (storedValue value) where
  text := by
    rintro v rfl hne
    exact Option.filter_eq_some_iff.mpr ⟨rfl, by simpa [CString.strlen] using hne⟩
  empty := by
    intro hempty
    cases value with
    | none => rfl
    | some v => simp [storedValue, CString.strlen, hempty v rfl]

lemma setLaw_of_ok {first first' : List Header} {key : CString} {value : Option CString}
    (h : redhttpHeadersSet first key value = .ok first') : SetLaw first key value first' := by
  have hentries := headerEntries_set h
  have hkeys : ∀ headers : List Header,
      (headerEntries headers).map Prod.fst = headers.map Header.key := by
    intro headers
    rw [headerEntries, List.map_map]
    rfl
  refine ⟨?_, ?_, ?_, ?_, ?_⟩
  · intro key' hkey
    rw [redhttpHeadersGet_eq, hentries, Multimap.lookup_assign_of_eq hkey]
    exact keptAs_storedValue value
  · intro key' hkey
    rw [redhttpHeadersGet_eq, hentries, Multimap.lookup_assign_of_ne hkey, redhttpHeadersGet_eq]
  · intro key' hkey
    rw [Bool.eq_iff_iff, redhttpHeadersExists_iff, redhttpHeadersExists_iff, hentries,
      Multimap.has_assign_of_ne hkey]
  · intro hexists
    rw [← hkeys, ← hkeys, hentries,
      Multimap.keys_assign_of_has (redhttpHeadersExists_iff.mp hexists)]
  · intro hnot
    have hhas : ¬ Multimap.Has foldKey (headerEntries first) key := by
      rw [← redhttpHeadersExists_iff, hnot]
      decide
    refine ⟨_, keptAs_storedValue value, headerEntries_injective ?_⟩
    rw [hentries, Multimap.assign_of_not_has hhas]
    simp [headerEntries]

lemma addLaw_of_ok {first first' : List Header} {key : CString} {value : Option CString}
    (h : redhttpHeadersAdd first key value = .ok first') : AddLaw first key value first' := by
  have hentries := headerEntries_add h
  refine ⟨⟨_, keptAs_storedValue value, headerEntries_injective ?_⟩, fun hexists => ?_⟩
  · rw [hentries]
    simp [headerEntries]
  · rw [redhttpHeadersGet_eq, hentries,
      Multimap.lookup_append_of_has (redhttpHeadersExists_iff.mp hexists), redhttpHeadersGet_eq]

/-- Every list obeys the laws. -/
lemma multimapLaws (first : List Header) : MultimapLaws first := by
  have hindex : ∀ i, headersGetIndexFrom i first 0 = (headerEntries first)[i]? := by
    intro i
    rw [headersGetIndexFrom_eq i first (Nat.zero_le i), Nat.sub_zero, redhttpHeadersGetIndex_eq]
  refine ⟨?_, ?_, hindex, ?_, ?_⟩
  · intro key value hkey
    obtain ⟨first', h⟩ := redhttpHeadersSet_ok hkey first value
    exact ⟨first', h, setLaw_of_ok h⟩
  · intro key value hkey
    exact ⟨_, redhttpHeadersAdd_of_ne hkey first value,
      addLaw_of_ok (redhttpHeadersAdd_of_ne hkey first value)⟩
  · intro i
    rw [hindex, headersCountFrom_eq, Nat.zero_add, redhttpHeadersCount, headerEntries]
    simp
  · intro key
    simp only [redhttpHeadersExists_iff, hindex, Multimap.Has, List.mem_iff_getElem?]
    constructor
    · rintro ⟨⟨key', value⟩, ⟨i, hi⟩, hkey⟩
      exact ⟨i, key', value, hi, hkey⟩
    · rintro ⟨i, key', value, hi, hkey⟩
      exact ⟨(key', value), ⟨i, hi⟩, hkey⟩

/-- The comparison is an equivalence of keys, every history of calls with keys gets through, and
the list that it leaves is an ordered multimap. -/
theorem redhttpHeaders_multimap :
    Equivalence (fun key key' : CString => redhttpStrcasecmp key.bytes key'.bytes = 0) ∧
    (∀ key key' : CString, redhttpStrcasecmp key.bytes key'.bytes = 0 ↔
      foldKey key = foldKey key') ∧
    ∀ calls : List HeaderCall, (∀ call ∈ calls, call.Keyed) →
      ∃ first, HeaderCall.run calls = .ok first ∧ MultimapLaws first := by
  have hfold : ∀ key key' : CString, redhttpStrcasecmp key.bytes key'.bytes = 0 ↔
      foldKey key = foldKey key' :=
    fun key key' => redhttpStrcasecmp_eq_zero_iff key.nul_free key'.nul_free
  refine ⟨⟨?_, ?_, ?_⟩, hfold, ?_⟩
  · exact fun key => (hfold key key).mpr rfl
  · exact fun h => (hfold _ _).mpr ((hfold _ _).mp h).symm
  · exact fun h h' => (hfold _ _).mpr (((hfold _ _).mp h).trans ((hfold _ _).mp h'))
  · intro calls hcalls
    obtain ⟨first, hfirst⟩ := HeaderCall.run_ok hcalls
    exact ⟨first, hfirst, multimapLaws first⟩

/-- A history with a key in two spellings. -/
theorem redhttpHeaders_multimap_spellings :
    ∃ first, HeaderCall.run [.parseLine (CString.lit "Host: example.org"),
        .add (CString.lit "host") (some (CString.lit "localhost")),
        .set (CString.lit "HOST") none] = .ok first ∧ MultimapLaws first :=
  redhttpHeaders_multimap.2.2 _ (by decide)

end RedStore.RedHttp
