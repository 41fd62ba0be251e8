/-
`redhttp_request_parse_arguments` on the copy that it cuts up.

A round looks for `=`, `&` and `;` from its position on, and writes terminators over those
that it takes, into the bytes that the next round goes on in.  What it leaves in front of that
position are the strings of one segment, so that the rounds are the segments.
-/
import RedStore.CLib.Block
import RedStore.CLib.Loop
import RedStore.RedHttp.Arguments

namespace RedStore.RedHttp
open CLib

/-! ### The loop -/

/-- The variables of the loop. -/
structure ArgumentState where
  /-- The copy of the input, with its terminator. -/
  args : List UInt8
  ptr : Option ℕ
  /-- `request->arguments`. -/
  arguments : List Header

/-- The string at a position. -/
def stringAt (args : List UInt8) (ptr : ℕ) : Except Fault (List UInt8) :=
  if 0 ∈ args.drop ptr then .ok ((args.drop ptr).takeWhile (· != 0)) else .error .outOfBounds

/-- The string at a position that may be NULL. -/
def optionalString (args : List UInt8) : Option ℕ → Except Fault (Option (List UInt8))
  | some ptr => some <$> stringAt args ptr
  | none => .ok none

/-- `strchr` from a position on. -/
def strchrAt (args : List UInt8) (ptr : ℕ) (c : UInt8) : Except Fault (Option ℕ) := do
  let s ← stringAt args ptr
  .ok ((strchr s c).map (· + ptr))

/-- `ptr && *ptr`. -/
def moreArguments (s : ArgumentState) : Except Fault Bool :=
  match s.ptr with
  | none => .ok false
  | some ptr =>
    match s.args[ptr]? with
    | some c => .ok (c != 0)
    | none => .error .outOfBounds

/-- The end of the key, if the first `=` comes before the separators. -/
def endKey (args : List UInt8) (equals amp semi : Option ℕ) :
    Except Fault (List UInt8 × Option ℕ) :=
  match equals.filter fun equals => before equals amp && before equals semi with
  | some equals => do
    let args ← store [0] equals args
    .ok (args, some (equals + 1))
  | none => .ok (args, none)

/-- `amp && (!semi || amp < semi) ? amp : semi`. -/
def firstSeparator : Option ℕ → Option ℕ → Option ℕ
  | some amp, semi => if before amp semi then some amp else semi
  | none, semi => semi

/-- The end of the segment. -/
def endSegment (args : List UInt8) (amp semi : Option ℕ) :
    Except Fault (List UInt8 × Option ℕ) :=
  match firstSeparator amp semi with
  | some endptr => do
    let args ← store [0] endptr args
    .ok (args, some (endptr + 1))
  | none => .ok (args, none)

/-- A round of the loop. -/
def argumentRound (s : ArgumentState) : Except Fault (Option ArgumentState) :=
  match s.ptr with
  | none => .error .nullPointer
  | some key => do
    let equals ← strchrAt s.args key (ch '=')
    let amp ← strchrAt s.args key (ch '&')
    let semi ← strchrAt s.args key (ch ';')
    let (args, value) ← endKey s.args equals amp semi
    let (args, ptr) ← endSegment args amp semi
    let key ← stringAt args key
    let value ← optionalString args value
    let arguments ← redhttpHeadersAdd s.arguments (unescaped key) (value.map unescaped)
    .ok (some { args, ptr, arguments })

/-- The loop of `redhttp_request_parse_arguments`, on `redhttp_strdup(input)`. -/
def argumentLoop (fuel : ℕ) (input : CString) (arguments : List Header) :
    Except Fault (Option ArgumentState) :=
  whileLoop moreArguments argumentRound fuel
    { args := input.bytes ++ [0], ptr := some 0, arguments }

/-! ### Looking -/

lemma stringAt_append {s : List UInt8} (hs : (0 : UInt8) ∉ s) (front more : List UInt8) :
    stringAt (front ++ (s ++ 0 :: more)) front.length = .ok s := by
  have htake : (s ++ 0 :: more).takeWhile (· != 0) = s := by
    rw [takeWhile_bne_append hs]
    simp
  rw [stringAt, List.drop_left, if_pos (by simp), htake]

lemma strchrAt_append {s : List UInt8} (hs : (0 : UInt8) ∉ s) (front more : List UInt8)
    (c : UInt8) : strchrAt (front ++ (s ++ 0 :: more)) front.length c =
      .ok ((strchr s c).map (· + front.length)) := by
  rw [strchrAt, stringAt_append hs]
  rfl

lemma moreArguments_append {s : List UInt8} (hs : (0 : UInt8) ∉ s) (front more : List UInt8)
    (arguments : List Header) : moreArguments
      { args := front ++ (s ++ 0 :: more), ptr := some front.length, arguments } =
        .ok (!s.isEmpty) := by
  have hget : (front ++ (s ++ 0 :: more))[front.length]? = (s ++ 0 :: more)[0]? := by
    rw [List.getElem?_append_right le_rfl, Nat.sub_self]
  simp only [moreArguments, hget]
  cases s with
  | nil => rfl
  | cons c s =>
    have hc : c ≠ 0 := by
      rintro rfl
      simp at hs
    simp [hc]

/-! ### Cutting -/

/-- The store of a byte behind what stands in front of it. -/
lemma store_append_cons (front more : List UInt8) (c d : UInt8) :
    store [d] front.length (front ++ c :: more) = .ok (front ++ d :: more) := by
  rw [store_one (by simp), List.set_append_right _ _ le_rfl, Nat.sub_self]
  rfl

/-- A segment with a terminator behind its key. -/
def cutSegment (seg : List UInt8) : List UInt8 :=
  (strchr seg (ch '=')).elim seg fun e => seg.set e 0

lemma before_add (e n : ℕ) (p : Option ℕ) : before (e + n) (p.map (· + n)) = before e p := by
  cases p <;> simp [before]

lemma length_cutSegment (seg : List UInt8) : (cutSegment seg).length = seg.length := by
  rw [cutSegment]
  cases strchr seg (ch '=') <;> simp

/-- The end of the key, for a position in front of a segment. -/
lemma endKey_append {s seg : List UInt8} (hequals : ownEquals s = strchr seg (ch '='))
    (front more : List UInt8) :
    endKey (front ++ (seg ++ more)) ((strchr s (ch '=')).map (· + front.length))
      ((strchr s (ch '&')).map (· + front.length)) ((strchr s (ch ';')).map (· + front.length)) =
      .ok (front ++ (cutSegment seg ++ more),
        (strchr seg (ch '=')).map (· + front.length + 1)) := by
  have hfilter : ((strchr s (ch '=')).map (· + front.length)).filter (fun equals =>
      before equals ((strchr s (ch '&')).map (· + front.length)) &&
        before equals ((strchr s (ch ';')).map (· + front.length))) =
      (strchr seg (ch '=')).map (· + front.length) := by
    rw [← hequals, ownEquals]
    cases strchr s (ch '=') with
    | none => rfl
    | some e =>
      simp only [Option.map_some, Option.filter_some, before_add]
      split_ifs <;> rfl
  rw [endKey, hfilter]
  rcases segment_cases seg with ⟨he, -, -⟩ | ⟨k, v, hseg, he, -, -⟩
  · simp [he, cutSegment]
  · have hcut : cutSegment seg = k ++ 0 :: v := by
      rw [cutSegment, he, hseg]
      simp
    have hstore := store_append_cons (front ++ k) (v ++ more) (ch '=') 0
    rw [List.length_append, Nat.add_comm] at hstore
    have hargs : front ++ (seg ++ more) = front ++ k ++ ch '=' :: (v ++ more) := by simp [hseg]
    simp only [he, Option.map_some, hargs, hstore, bind, Except.bind, hcut]
    simp

lemma firstSeparator_map (s : List UInt8) (n : ℕ) :
    firstSeparator ((strchr s (ch '&')).map (· + n)) ((strchr s (ch ';')).map (· + n)) =
      (separator s).map (· + n) := by
  rw [separator]
  cases strchr s (ch '&') with
  | none => rfl
  | some amp =>
    simp only [Option.map_some, firstSeparator, before_add]
    split_ifs <;> rfl

/-- The strings of a segment, once it has been cut. -/
lemma stringAt_cutSegment {seg : List UInt8} (hseg : (0 : UInt8) ∉ seg) (front more : List UInt8) :
    stringAt (front ++ (cutSegment seg ++ 0 :: more)) front.length = .ok (segmentKey seg) ∧
      optionalString (front ++ (cutSegment seg ++ 0 :: more))
        ((strchr seg (ch '=')).map (· + front.length + 1)) = .ok (segmentValue seg) := by
  rcases segment_cases seg with ⟨he, hkey, hvalue⟩ | ⟨k, v, hcut, he, hkey, hvalue⟩
  · have hself : cutSegment seg = seg := by rw [cutSegment, he, Option.elim_none]
    rw [hself, he, hkey, hvalue]
    exact ⟨stringAt_append hseg front more, rfl⟩
  · have hself : cutSegment seg = k ++ 0 :: v := by
      rw [cutSegment, he, hcut]
      simp
    simp only [hcut, List.mem_append, List.mem_cons, not_or] at hseg
    have hargs : front ++ (cutSegment seg ++ 0 :: more) =
        front ++ (k ++ 0 :: (v ++ 0 :: more)) := by
      rw [hself, List.append_assoc, List.cons_append]
    have hargs' : front ++ (cutSegment seg ++ 0 :: more) =
        front ++ k ++ [0] ++ (v ++ 0 :: more) := by
      rw [hself]
      simp
    have hlength : k.length + front.length + 1 = (front ++ k ++ [0]).length := by
      simp
      omega
    rw [he, hkey, hvalue]
    constructor
    · rw [hargs]
      exact stringAt_append hseg.1 _ _
    · rw [Option.map_some, optionalString, hlength, hargs', stringAt_append hseg.2.2]
      rfl

/-! ### A round -/

section Round

variable {seg front : List UInt8} {arguments : List Header}
  (hseg : (0 : UInt8) ∉ seg) (hkey : (unescaped (segmentKey seg)).strlen ≠ 0)
include hseg hkey

/-- A round that has found the end of its segment. -/
lemma argumentRound_of_cut {s more more' : List UInt8} {ptr : Option ℕ} (hs : (0 : UInt8) ∉ s)
    (hargs : s ++ [0] = seg ++ more) (hequals : ownEquals s = strchr seg (ch '='))
    (hend : endSegment (front ++ (cutSegment seg ++ more))
      ((strchr s (ch '&')).map (· + front.length)) ((strchr s (ch ';')).map (· + front.length)) =
        .ok (front ++ (cutSegment seg ++ 0 :: more'), ptr)) :
    argumentRound { args := front ++ (s ++ [0]), ptr := some front.length, arguments } =
      .ok (some
        { args := front ++ (cutSegment seg ++ 0 :: more')
          ptr
          arguments := arguments ++ [segmentHeader seg] }) := by
  have hkeyEnd := endKey_append hequals front more
  obtain ⟨hkeyAt, hvalueAt⟩ := stringAt_cutSegment hseg front more'
  have hadd := redhttpHeadersAdd_of_ne hkey arguments ((segmentValue seg).map unescaped)
  rw [← hargs] at hkeyEnd
  simp only [argumentRound, strchrAt_append hs, hkeyEnd, hend, hkeyAt, hvalueAt, hadd, bind,
    Except.bind]
  rfl

/-- A round at a segment in front of a separator goes on behind the separator. -/
lemma argumentRound_of_cons (h : ∀ c ∈ seg, isSeparator c = false) {c : UInt8}
    (hc : isSeparator c = true) {rest : List UInt8} (hrest : (0 : UInt8) ∉ rest) :
    argumentRound
      { args := front ++ (seg ++ c :: rest ++ [0]), ptr := some front.length, arguments } =
      .ok (some
        { args := front ++ (cutSegment seg ++ 0 :: (rest ++ [0]))
          ptr := some (front.length + seg.length + 1)
          arguments := arguments ++ [segmentHeader seg] }) := by
  have hzero : (0 : UInt8) ∉ seg ++ c :: rest := by
    have hne : c ≠ 0 := by
      rintro rfl
      cases hc
    simp [hseg, hne.symm, hrest]
  have hequals := ownEquals_of_cons h hc rest
  refine argumentRound_of_cut hseg hkey hzero (List.append_assoc _ _ _) hequals ?_
  have hstore := store_append_cons (front ++ cutSegment seg) (rest ++ [0]) c 0
  simp only [List.length_append, length_cutSegment, List.append_assoc] at hstore
  rw [endSegment, firstSeparator_map, separator_of_cons h hc, Option.map_some,
    Nat.add_comm seg.length]
  simp only [List.cons_append, hstore, bind, Except.bind]

/-- A round at the last segment ends the loop. -/
lemma argumentRound_of_last (h : ∀ c ∈ seg, isSeparator c = false) :
    argumentRound { args := front ++ (seg ++ [0]), ptr := some front.length, arguments } =
      .ok (some
        { args := front ++ (cutSegment seg ++ [0])
          ptr := none
          arguments := arguments ++ [segmentHeader seg] }) := by
  refine argumentRound_of_cut hseg hkey hseg rfl (ownEquals_of_last h) ?_
  rw [endSegment, firstSeparator_map, separator_of_last h]
  rfl

end Round

/-! ### The rounds -/

/-- In front of a text with `n` more segments, whose entries are still to be added. -/
def ArgumentInv (final : List Header) (n : ℕ) (s : ArgumentState) : Prop :=
  ∃ text, (argumentSegments text).length = n ∧ KeysNonEmpty text ∧ (0 : UInt8) ∉ text ∧
    s.arguments ++ (argumentSegments text).map segmentHeader = final ∧
    ((s.ptr = none ∧ text = []) ∨
      ∃ front, s.ptr = some front.length ∧ s.args = front ++ (text ++ [0]))

lemma argumentSegments_eq_nil_iff {text : List UInt8} :
    (argumentSegments text).length = 0 ↔ text = [] := by
  constructor
  · intro h
    by_contra hne
    rcases first_segment text with hlast | ⟨seg, c, rest, rfl, hseg, hc⟩
    · rw [argumentSegments_of_last hlast hne] at h
      simp at h
    · rw [argumentSegments_cons hseg hc] at h
      simp at h
  · rintro rfl
    rfl

lemma moreArguments_done {final : List Header} {s : ArgumentState} (h : ArgumentInv final 0 s) :
    moreArguments s = .ok false := by
  obtain ⟨text, hlength, -, -, -, ⟨hptr, -⟩ | ⟨front, hptr, hargs⟩⟩ := h
  · rw [moreArguments, hptr]
  · obtain ⟨args, ptr, arguments⟩ := s
    obtain rfl := argumentSegments_eq_nil_iff.mp hlength
    obtain rfl : args = _ := hargs
    obtain rfl : ptr = _ := hptr
    exact moreArguments_append List.not_mem_nil front [] arguments

lemma ArgumentInv.round {final : List Header} {n : ℕ} {s : ArgumentState}
    (h : ArgumentInv final (n + 1) s) : moreArguments s = .ok true ∧
      ∃ s', argumentRound s = .ok (some s') ∧ ArgumentInv final n s' := by
  obtain ⟨text, hlength, hkeys, hzero, hfinal, ⟨-, rfl⟩ | ⟨front, hptr, hargs⟩⟩ := h
  · cases hlength
  obtain ⟨args, ptr, arguments⟩ := s
  obtain rfl : args = _ := hargs
  obtain rfl : ptr = _ := hptr
  have hne : text ≠ [] := by
    rintro rfl
    cases hlength
  refine ⟨?_, ?_⟩
  · rw [moreArguments_append hzero]
    simp [hne]
  · rcases first_segment text with hlast | ⟨seg, c, rest, rfl, hseg, hc⟩
    · have hsegments := argumentSegments_of_last hlast hne
      rw [KeysNonEmpty, hsegments, List.forall_mem_singleton] at hkeys
      refine ⟨_, argumentRound_of_last hzero hkeys hlast, [], ?_, by simp [KeysNonEmpty], by simp,
        ?_, Or.inl ⟨rfl, rfl⟩⟩
      · have hn : n = 0 := by simpa [hsegments] using hlength
        exact hn.symm
      · rw [← hfinal, hsegments]
        simp
    · have hsegments := argumentSegments_cons hseg hc rest
      rw [KeysNonEmpty, hsegments, List.forall_mem_cons] at hkeys
      simp only [List.mem_append, List.mem_cons, not_or] at hzero
      refine ⟨_, argumentRound_of_cons hzero.1 hkeys.1 hseg hc hzero.2.2, rest, ?_, hkeys.2,
        hzero.2.2, ?_, Or.inr ⟨front ++ (cutSegment seg ++ [0]), ?_, ?_⟩⟩
      · rw [hsegments] at hlength
        simpa using hlength
      · rw [← hfinal, hsegments]
        simp
      · simp [length_cutSegment, Nat.add_assoc]
      · simp

/-- The arguments of a query string whose keys are all there are added behind those there were,
one for each segment; each key exists then.  The loop makes one round for each segment. -/
theorem redhttpRequestParseArguments_segments (r : Request) (input : CString)
    (h : KeysNonEmpty input.bytes) :
    redhttpRequestParseArguments (some input) r = .ok () { r with
        arguments := r.arguments ++ (argumentSegments input.bytes).map segmentHeader } ∧
      (∀ seg ∈ argumentSegments input.bytes, redhttpHeadersExists
        (r.arguments ++ (argumentSegments input.bytes).map segmentHeader)
        (unescaped (segmentKey seg)) = true) ∧
      (∀ fuel ≤ (argumentSegments input.bytes).length,
        argumentLoop fuel input r.arguments = .ok none) ∧
      ∃ s, s.arguments = r.arguments ++ (argumentSegments input.bytes).map segmentHeader ∧
        ∀ fuel > (argumentSegments input.bytes).length,
          argumentLoop fuel input r.arguments = .ok (some s) := by
  have hexists : ∀ seg ∈ argumentSegments input.bytes, redhttpHeadersExists
      (r.arguments ++ (argumentSegments input.bytes).map segmentHeader)
      (unescaped (segmentKey seg)) = true := by
    intro seg hseg
    rw [redhttpHeadersExists_eq_true_iff]
    exact ⟨segmentHeader seg, by simpa using Or.inr ⟨seg, hseg, rfl⟩, sameKey_self _⟩
  have hstart : ArgumentInv (r.arguments ++ (argumentSegments input.bytes).map segmentHeader)
      (argumentSegments input.bytes).length
      { args := input.bytes ++ [0], ptr := some 0, arguments := r.arguments } :=
    ⟨input.bytes, rfl, h, input.nul_free, rfl, Or.inr ⟨[], rfl, rfl⟩⟩
  obtain ⟨hshort, s, ⟨text, hlength, -, -, hfinal, -⟩, hlong⟩ :=
    whileLoop_of_rounds (ArgumentInv _) (fun _ => moreArguments_done)
      (fun _ _ hinv => hinv.round) hstart
  refine ⟨parseArguments_of_keys h r, hexists, hshort, s, ?_, hlong⟩
  obtain rfl := argumentSegments_eq_nil_iff.mp hlength
  simpa using hfinal

/-- Three segments, of which one has no value and one an empty one. -/
theorem redhttpRequestParseArguments_segments_three :
    KeysNonEmpty (CString.lit "a=%31;b&c=&").bytes ∧
      redhttpRequestParseArguments (some (CString.lit "a=%31;b&c=&")) {} = .ok ()
        { ({} : Request) with
          arguments := (argumentSegments (CString.lit "a=%31;b&c=&").bytes).map segmentHeader } ∧
      argumentSegments (CString.lit "a=%31;b&c=&").bytes =
        [bytesOf "a=%31", bytesOf "b", bytesOf "c="] := by
  have hkeys : KeysNonEmpty (CString.lit "a=%31;b&c=&").bytes := by decide
  exact ⟨hkeys, (redhttpRequestParseArguments_segments {} _ hkeys).1, by decide⟩

end RedStore.RedHttp
