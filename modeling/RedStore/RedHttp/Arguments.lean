/-
What `redhttp_request_parse_arguments` makes of a query string.

A query string is a sequence of segments, the pieces between `&` and `;`, where nothing
after a last separator counts as a segment.  The three `strchr` calls of a round find
exactly the end of the first segment and the `=` inside it, so that the loop as a whole
adds the segments one by one.
-/
import RedStore.RedHttp.Request

namespace RedStore.RedHttp
open CLib

/-- The characters that end a segment. -/
def isSeparator (c : UInt8) : Bool := c == ch '&' || c == ch ';'

/-- The segments of a query string. -/
def argumentSegments (s : List UInt8) : List (List UInt8) :=
  let pieces := s.splitOnP isSeparator
  if pieces.getLast? = some [] then pieces.dropLast else pieces

/-- The key of a segment, still encoded. -/
def segmentKey (seg : List UInt8) : List UInt8 := seg.takeWhile (· != ch '=')

/-- The value of a segment, still encoded. -/
def segmentValue (seg : List UInt8) : Option (List UInt8) :=
  (strchr seg (ch '=')).map fun i => seg.drop (i + 1)

/-- The entry that a segment stands for. -/
def segmentHeader (seg : List UInt8) : Header :=
  ⟨unescaped (segmentKey seg), storedValue ((segmentValue seg).map unescaped)⟩

/-- The key of every segment is there once it has been decoded. -/
def KeysNonEmpty (s : List UInt8) : Prop :=
  ∀ seg ∈ argumentSegments s, (unescaped (segmentKey seg)).strlen ≠ 0

instance (s : List UInt8) : Decidable (KeysNonEmpty s) :=
  inferInstanceAs (Decidable (∀ seg ∈ argumentSegments s, _))

/-! ### The segments -/

@[simp] lemma argumentSegments_nil : argumentSegments [] = [] := rfl

lemma argumentSegments_of_last {seg : List UInt8} (h : ∀ c ∈ seg, isSeparator c = false)
    (hne : seg ≠ []) : argumentSegments seg = [seg] := by
  have hsplit : seg.splitOnP isSeparator = [seg] :=
    List.splitOnP_eq_singleton h
  simp [argumentSegments, hsplit, hne]

lemma argumentSegments_cons {seg : List UInt8} (h : ∀ c ∈ seg, isSeparator c = false)
    {c : UInt8} (hc : isSeparator c = true) (rest : List UInt8) :
    argumentSegments (seg ++ c :: rest) = seg :: argumentSegments rest := by
  have hsplit : (seg ++ c :: rest).splitOnP isSeparator = seg :: rest.splitOnP isSeparator :=
    List.splitOnP_append_cons_of_forall_mem h c hc rest
  have hne : rest.splitOnP isSeparator ≠ [] := List.splitOnP_ne_nil _ _
  obtain ⟨piece, pieces, hp⟩ := List.exists_cons_of_ne_nil hne
  simp only [argumentSegments, hsplit, hp, List.getLast?_cons_cons, List.dropLast_cons_cons]
  split <;> rfl

/-- A query string is its first segment, alone or in front of a separator. -/
lemma first_segment (s : List UInt8) :
    (∀ c ∈ s, isSeparator c = false) ∨
      ∃ seg c rest, s = seg ++ c :: rest ∧ (∀ c ∈ seg, isSeparator c = false) ∧
        isSeparator c = true := by
  induction s with
  | nil => simp
  | cons x s ih =>
    by_cases hx : isSeparator x = true
    · exact Or.inr ⟨[], x, s, rfl, by simp, hx⟩
    · rcases ih with h | ⟨seg, c, rest, rfl, hseg, hc⟩
      · exact Or.inl (by simpa [hx] using h)
      · exact Or.inr ⟨x :: seg, c, rest, rfl, by simpa [hx] using hseg, hc⟩

lemma length_le_of_mem_argumentSegments {s seg : List UInt8} (h : seg ∈ argumentSegments s) :
    seg.length ≤ s.length := by
  induction hn : s.length using Nat.strong_induction_on generalizing s with
  | _ n ih =>
    subst hn
    rcases first_segment s with hlast | ⟨first, c, rest, rfl, hfirst, hc⟩
    · by_cases hnil : s = []
      · rw [hnil, argumentSegments_nil] at h
        cases h
      · rw [argumentSegments_of_last hlast hnil, List.mem_singleton] at h
        exact h ▸ le_rfl
    · rw [argumentSegments_cons hfirst hc, List.mem_cons] at h
      have hlength : (first ++ c :: rest).length = first.length + (rest.length + 1) := by simp
      rcases h with rfl | h
      · omega
      · have hrest := ih rest.length (by omega) h rfl
        omega

/-! ### One round of the loop -/

lemma before_map_add {q n : ℕ} (h : q < n) (p : Option ℕ) :
    before q (p.map (· + n)) = true := by
  cases p with
  | none => rfl
  | some p =>
    simp only [before, Option.map_some, decide_eq_true_eq]
    omega

lemma not_mem_of_not_separator {seg : List UInt8} (h : ∀ c ∈ seg, isSeparator c = false) :
    ch '&' ∉ seg ∧ ch ';' ∉ seg :=
  ⟨fun hm => absurd (h _ hm) (by decide), fun hm => absurd (h _ hm) (by decide)⟩

lemma separator_of_last {seg : List UInt8} (h : ∀ c ∈ seg, isSeparator c = false) :
    separator seg = none := by
  obtain ⟨hamp, hsemi⟩ := not_mem_of_not_separator h
  rw [separator, strchr_eq_none_iff.mpr hamp, strchr_eq_none_iff.mpr hsemi]

lemma separator_of_cons {seg : List UInt8} (h : ∀ c ∈ seg, isSeparator c = false)
    {c : UInt8} (hc : isSeparator c = true) (rest : List UInt8) :
    separator (seg ++ c :: rest) = some seg.length := by
  obtain ⟨hamp, hsemi⟩ := not_mem_of_not_separator h
  rw [separator, strchr_append_of_not_mem hamp, strchr_append_of_not_mem hsemi]
  simp only [isSeparator, Bool.or_eq_true, beq_iff_eq] at hc
  rcases hc with rfl | rfl
  · have hne : ch ';' ∉ [ch '&'] := by decide
    have hlater : strchr (ch '&' :: rest) (ch ';') = (strchr rest (ch ';')).map (· + 1) :=
      strchr_append_of_not_mem hne rest
    rw [strchr_cons_self, hlater, Option.map_map]
    have hb : before (0 + seg.length) ((strchr rest (ch ';')).map
        ((· + seg.length) ∘ (· + 1))) = true := by
      cases strchr rest (ch ';') with
      | none => rfl
      | some p =>
        simp only [before, Option.map_some, Function.comp_apply, decide_eq_true_eq]
        omega
    simp only [Option.map_some]
    rw [if_pos hb, Nat.zero_add]
  · have hne : ch '&' ∉ [ch ';'] := by decide
    have hlater : strchr (ch ';' :: rest) (ch '&') = (strchr rest (ch '&')).map (· + 1) :=
      strchr_append_of_not_mem hne rest
    rw [strchr_cons_self, hlater]
    cases strchr rest (ch '&') with
    | none => simp
    | some p => simp [before]

/-- The first `=` if no separator comes before it. -/
def ownEquals (ptr : List UInt8) : Option ℕ :=
  (strchr ptr (ch '=')).filter fun equals =>
    before equals (strchr ptr (ch '&')) && before equals (strchr ptr (ch ';'))

/-- The first `=` belongs to the segment exactly when it is in the segment. -/
lemma ownEquals_of_cons {seg : List UInt8} (h : ∀ c ∈ seg, isSeparator c = false)
    {c : UInt8} (hc : isSeparator c = true) (rest : List UInt8) :
    ownEquals (seg ++ c :: rest) = strchr seg (ch '=') := by
  obtain ⟨hamp, hsemi⟩ := not_mem_of_not_separator h
  rw [ownEquals, strchr_append_of_not_mem hamp, strchr_append_of_not_mem hsemi]
  by_cases heq : ch '=' ∈ seg
  · obtain ⟨e, he⟩ : ∃ e, strchr seg (ch '=') = some e :=
      Option.ne_none_iff_exists'.mp fun hnone => strchr_eq_none_iff.mp hnone heq
    have hlt := strchr_lt_length he
    rw [strchr_append_of_mem heq, he, Option.filter_some_pos]
    simp only [before_map_add hlt, Bool.and_self]
  · rw [strchr_append_of_not_mem heq, strchr_eq_none_iff.mpr heq]
    cases he : strchr (c :: rest) (ch '=') with
    | none => rfl
    | some e =>
      -- the `=` found lies behind the separator at `seg.length`
      rw [Option.map_some, Option.filter_some_neg]
      simp only [isSeparator, Bool.or_eq_true, beq_iff_eq] at hc
      have hlate : ¬ e + seg.length < seg.length := by omega
      rcases hc with rfl | rfl <;> simp [before, hlate]

lemma ownEquals_of_last {seg : List UInt8} (h : ∀ c ∈ seg, isSeparator c = false) :
    ownEquals seg = strchr seg (ch '=') := by
  obtain ⟨hamp, hsemi⟩ := not_mem_of_not_separator h
  rw [ownEquals, strchr_eq_none_iff.mpr hamp, strchr_eq_none_iff.mpr hsemi]
  cases strchr seg (ch '=') <;> rfl

/-- A segment is its key, alone or in front of `=` and its value. -/
lemma segment_cases (seg : List UInt8) :
    (strchr seg (ch '=') = none ∧ segmentKey seg = seg ∧ segmentValue seg = none) ∨
      ∃ k v, seg = k ++ ch '=' :: v ∧ strchr seg (ch '=') = some k.length ∧
        segmentKey seg = k ∧ segmentValue seg = some v := by
  cases he : strchr seg (ch '=') with
  | none =>
    refine Or.inl ⟨rfl, ?_, by rw [segmentValue, he, Option.map_none]⟩
    exact takeWhile_bne_eq_self_iff.mpr (strchr_eq_none_iff.mp he)
  | some e =>
    have hkey : segmentKey seg = seg.take e := (take_of_strchr he).symm
    have hvalue : segmentValue seg = some (seg.drop (e + 1)) := by
      rw [segmentValue, he, Option.map_some]
    obtain ⟨k, v, rfl, -, rfl⟩ := strchr_eq_some_iff.mp he
    refine Or.inr ⟨k, v, rfl, rfl, ?_, ?_⟩
    · rw [hkey, List.take_left]
    · rw [hvalue, List.drop_length_add_append, List.drop_succ_cons, List.drop_zero]

/-- What a round takes off, by where it finds the `=` and the separator. -/
lemma nextArgument_eq (ptr : List UInt8) :
    let segment := (separator ptr).elim ptr fun i => ptr.take i
    nextArgument ptr = ⟨(ownEquals ptr).elim segment segment.take,
      (ownEquals ptr).map fun equals => segment.drop (equals + 1),
      (separator ptr).map fun i => ptr.drop (i + 1)⟩ := by
  simp only [nextArgument, ownEquals]
  cases strchr ptr (ch '=') with
  | none => rfl
  | some equals =>
    simp only [Option.filter_some]
    split_ifs <;> rfl

lemma nextArgument_of_cons {seg : List UInt8} (h : ∀ c ∈ seg, isSeparator c = false)
    {c : UInt8} (hc : isSeparator c = true) (rest : List UInt8) :
    nextArgument (seg ++ c :: rest) = ⟨segmentKey seg, segmentValue seg, some rest⟩ := by
  simp only [nextArgument_eq, separator_of_cons h hc, ownEquals_of_cons h hc, Option.elim_some,
    Option.map_some, List.take_left, List.drop_length_add_append, List.drop_succ_cons,
    List.drop_zero]
  rcases segment_cases seg with ⟨he, hkey, hvalue⟩ | ⟨k, v, rfl, he, hkey, hvalue⟩
  · simp [he, hkey, hvalue]
  · simp [he, hkey, hvalue, List.drop_append]

lemma nextArgument_of_last {seg : List UInt8} (h : ∀ c ∈ seg, isSeparator c = false) :
    nextArgument seg = ⟨segmentKey seg, segmentValue seg, none⟩ := by
  simp only [nextArgument_eq, separator_of_last h, ownEquals_of_last h, Option.elim_none,
    Option.map_none]
  rcases segment_cases seg with ⟨he, hkey, hvalue⟩ | ⟨k, v, rfl, he, hkey, hvalue⟩
  · simp [he, hkey, hvalue]
  · simp [he, hkey, hvalue, List.drop_append]

/-! ### The loop -/

/-- Add the entries of the segments, in order. -/
def addSegments : List (List UInt8) → RequestM Unit
  | [] => pure ()
  | seg :: segs => do
    updateArguments fun first =>
      redhttpHeadersAdd first (unescaped (segmentKey seg)) ((segmentValue seg).map unescaped)
    addSegments segs

/-- The loop adds one entry for each segment. -/
theorem parseArgumentsFrom_eq (s : List UInt8) :
    parseArgumentsFrom s = addSegments (argumentSegments s) := by
  induction hn : s.length using Nat.strong_induction_on generalizing s with
  | _ n ih =>
    subst hn
    by_cases hs : s = []
    · subst hs
      rw [parseArgumentsFrom, if_pos rfl, argumentSegments_nil]
      rfl
    · rcases first_segment s with h | ⟨seg, c, rest, rfl, h, hc⟩
      · rw [parseArgumentsFrom, if_neg hs, nextArgument_of_last h, argumentSegments_of_last h hs]
        rfl
      · have hrest := ih rest.length (by simp; omega) rest rfl
        rw [parseArgumentsFrom, if_neg hs, nextArgument_of_cons h hc, argumentSegments_cons h hc,
          addSegments, ← hrest]

lemma updateArguments_add {seg : List UInt8} (h : (unescaped (segmentKey seg)).strlen ≠ 0)
    (r : Request) :
    updateArguments (fun first => redhttpHeadersAdd first
      (unescaped (segmentKey seg)) ((segmentValue seg).map unescaped)) r =
      .ok () { r with arguments := r.arguments ++ [segmentHeader seg] } := by
  rw [updateArguments, redhttpHeadersAdd_of_ne h]
  rfl

lemma addSegments_of_keys {segs : List (List UInt8)}
    (h : ∀ seg ∈ segs, (unescaped (segmentKey seg)).strlen ≠ 0) (r : Request) :
    addSegments segs r =
      .ok () { r with arguments := r.arguments ++ segs.map segmentHeader } := by
  induction segs generalizing r with
  | nil => simp [addSegments, pure, EStateM.pure]
  | cons seg segs ih =>
    have hsegs : ∀ seg' ∈ segs, (unescaped (segmentKey seg')).strlen ≠ 0 :=
      fun seg' hseg' => h seg' (List.mem_cons_of_mem _ hseg')
    rw [addSegments, bind_of_ok (updateArguments_add (h seg List.mem_cons_self) r), ih hsegs]
    simp

lemma addSegments_of_not_keys {segs : List (List UInt8)}
    (h : ¬ ∀ seg ∈ segs, (unescaped (segmentKey seg)).strlen ≠ 0) (r : Request) :
    ∃ r', addSegments segs r = .error .assertion r' := by
  induction segs generalizing r with
  | nil => simp at h
  | cons seg segs ih =>
    rw [addSegments]
    by_cases hkey : (unescaped (segmentKey seg)).strlen = 0
    · refine ⟨r, bind_of_error ?_ _⟩
      rw [updateArguments, redhttpHeadersAdd_eq_assertion_iff.mpr hkey]
    · obtain ⟨r', hr'⟩ := ih (by simpa [hkey] using h)
        { r with arguments := r.arguments ++ [segmentHeader seg] }
      refine ⟨r', ?_⟩
      rw [bind_of_ok (updateArguments_add hkey r)]
      exact hr'

/-- Splitting arguments leaves alone what does not depend on the arguments. -/
lemma keeps_parseArguments {γ : Type} {proj : Request → γ}
    (h : ∀ (r : Request) (arguments : List Header), proj { r with arguments } = proj r)
    (input : Option CString) : Keeps proj (redhttpRequestParseArguments input) := by
  have hsegments : ∀ segs : List (List UInt8), Keeps proj (addSegments segs) := by
    intro segs
    induction segs with
    | nil => exact keeps_pure ()
    | cons seg segs ih =>
      refine keeps_bind (fun r => ?_) fun _ => ih
      rw [updateArguments]
      split
      · exact h _ _
      · rfl
  cases input with
  | none => exact keeps_pure ()
  | some s =>
    rw [redhttpRequestParseArguments, parseArgumentsFrom_eq]
    exact hsegments _

/-- A query string whose keys are all there is appended entry by entry. -/
lemma parseArguments_of_keys {s : CString} (h : KeysNonEmpty s.bytes) (r : Request) :
    redhttpRequestParseArguments (some s) r =
      .ok () { r with
        arguments := r.arguments ++ (argumentSegments s.bytes).map segmentHeader } := by
  rw [redhttpRequestParseArguments, parseArgumentsFrom_eq]
  exact addSegments_of_keys h r

/-- A query string with a missing key aborts the process. -/
lemma parseArguments_of_not_keys {s : CString} (h : ¬ KeysNonEmpty s.bytes) (r : Request) :
    ∃ r', redhttpRequestParseArguments (some s) r = .error .assertion r' := by
  rw [redhttpRequestParseArguments, parseArgumentsFrom_eq]
  exact addSegments_of_not_keys h r

end RedStore.RedHttp
