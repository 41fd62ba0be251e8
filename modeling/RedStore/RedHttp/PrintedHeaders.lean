/-
Which header blocks are read back as they were printed.

`redhttp_headers_print` puts the strings of a header into its line as they are.  What
`redhttp_request_read_line` and `redhttp_headers_parse_line` find on a line is a key that is
not empty and has no colon, and a value that does not start with white space; neither has a
line end in it.  So a block is read back exactly when its headers are of this kind and no
line is too long for the line buffer.
-/
import RedStore.RedHttp.ReadBack
import RedStore.RedHttp.Response

namespace RedStore.RedHttp
open CLib

/-! ### Headers that can be printed -/

/-- A byte that does not end a line. -/
def LineByte (c : UInt8) : Prop := c ≠ ch '\r' ∧ c ≠ ch '\n'

instance (c : UInt8) : Decidable (LineByte c) := by
  unfold LineByte
  infer_instance

/-- A string that stays on its line. -/
def SingleLine (s : CString) : Prop := ∀ c ∈ s.bytes, LineByte c

instance (s : CString) : Decidable (SingleLine s) :=
  decidable_of_iff (s.bytes.all fun c => decide (LineByte c)) (by simp [SingleLine])

/-- The string starts with something other than white space. -/
def StartsVisibly (s : CString) : Prop := ∃ c ∈ s.bytes.head?, isspace c = false

instance (s : CString) : Decidable (StartsVisibly s) :=
  decidable_of_iff (s.bytes.head?.any fun c => !isspace c) (by
    simp [StartsVisibly, Option.any_eq_true])

/-- A value that can stand behind a key. -/
structure PlainValue (v : CString) : Prop where
  start : StartsVisibly v
  text : SingleLine v

instance (v : CString) : Decidable (PlainValue v) :=
  decidable_of_iff (StartsVisibly v ∧ SingleLine v) ⟨fun h => ⟨h.1, h.2⟩, fun h => ⟨h.1, h.2⟩⟩

/-- A name that can stand in front of a colon. -/
structure PlainKey (key : CString) : Prop where
  ne : key.bytes ≠ []
  text : ∀ c ∈ key.bytes, c ≠ ch ':' ∧ LineByte c

instance (key : CString) : Decidable (PlainKey key) :=
  decidable_of_iff (key.bytes ≠ [] ∧
      (key.bytes.all fun c => decide (c ≠ ch ':' ∧ LineByte c)) = true) (by
    simp only [List.all_eq_true, decide_eq_true_eq]
    exact ⟨fun h => ⟨h.1, h.2⟩, fun h => ⟨h.ne, h.text⟩⟩)

/-- A header that can be printed on a line. -/
structure PlainHeader (it : Header) : Prop where
  key : PlainKey it.key
  value : ∃ v ∈ it.value, PlainValue v

/-- Reading header lines from some input gives a list of headers and leaves a body. -/
def ParsesTo (heap : Heap) (input : List UInt8) (headers : List Header) (body : List UInt8) :
    Prop :=
  ∃ r', readHeadersFrom heap { socket := { input } } = .ok () r' ∧ r'.headers = headers ∧
    r'.socket.input = body

/-- A header block in front of a body is read back as it was printed, given memory for any
buffer there is. -/
def BlockIntact (headers : List Header) (body : List UInt8) : Prop :=
  ∀ heap : Heap, heap.Ample →
    ParsesTo heap (redhttpHeadersPrint headers ++ (bytesOf "\r\n" ++ body)) headers body

/-! ### What is found on a line -/

section Line

variable {heap : Heap} {initial size : ℕ} {input stored line rest : List UInt8}

lemma lineByte_storedByte {c : UInt8} (h : c ≠ ch '\n') : LineByte (storedByte c) := by
  rw [storedByte]
  split
  · decide
  · next hcr => exact ⟨hcr, h⟩

/-- What has been stored of a line has no line end in it. -/
lemma readLineLoop_lineByte (hstored : ∀ c ∈ stored, LineByte c)
    (h : readLineLoop heap initial input stored size = .ok (some line, rest)) :
    ∃ size' stored', line = lineMemory heap initial size' stored' ∧ ∀ c ∈ stored', LineByte c := by
  induction input generalizing stored size with
  | nil => simp [readLineLoop] at h
  | cons c input ih =>
    have hmore : c ≠ ch '\n' → ∀ b ∈ stored ++ [storedByte c], LineByte b := by
      intro hc b hb
      rcases List.mem_append.mp hb with hb | hb
      · exact hstored b hb
      · rw [List.mem_singleton.mp hb]
        exact lineByte_storedByte hc
    rw [readLineLoop] at h
    split_ifs at h with h0 hsize hnl hfull hint hmalloc
    · simp at h
    · simp only [Except.ok.injEq, Prod.mk.injEq, Option.some.injEq] at h
      exact ⟨size, stored, h.1.symm, hstored⟩
    · exact ih (hmore hnl) h
    · simp at h
    · exact ih (hmore hnl) h

lemma readLineFrom_lineByte (h : readLineFrom heap initial input = .ok (some line, rest)) :
    ∃ size' stored', line = lineMemory heap initial size' stored' ∧ ∀ c ∈ stored', LineByte c := by
  rw [readLineFrom] at h
  split at h
  · exact readLineLoop_lineByte (by simp) h
  · simp at h

lemma mem_of_mem_ofBytes_append_zero {s t : List UInt8} {c : UInt8}
    (h : c ∈ (CString.ofBytes (s ++ 0 :: t)).bytes) : c ∈ s := by
  rw [CString.bytes_ofBytes] at h
  induction s with
  | nil => simp at h
  | cons b s ih =>
    rw [List.cons_append, List.takeWhile_cons] at h
    split at h
    · rcases List.mem_cons.mp h with rfl | h
      · simp
      · exact List.mem_cons_of_mem _ (ih h)
    · simp at h

/-- The string that is found on a line stays on it. -/
lemma readLineFrom_singleLine (h : readLineFrom heap initial input = .ok (some line, rest)) :
    SingleLine (CString.ofBytes line) := by
  obtain ⟨size', stored', rfl, hstored⟩ := readLineFrom_lineByte h
  exact fun c hc => hstored c (mem_of_mem_ofBytes_append_zero hc)

end Line

lemma headerBlock_singleLine (heap : Heap) (input : List UInt8) :
    ∀ line ∈ (headerBlock heap input).lines, SingleLine line := by
  induction hn : input.length using Nat.strong_induction_on generalizing input with
  | _ n ih =>
    subst hn
    rcases hline : readLineFrom heap bufsiz input with e | ⟨_ | line, rest⟩
    · simp [headerBlock_of_error hline]
    · simp [headerBlock_of_none hline]
    · by_cases hl : (CString.ofBytes line).strlen = 0
      · simp [headerBlock_of_empty hline hl]
      · rw [headerBlock_of_line hline hl, List.forall_mem_cons]
        exact ⟨readLineFrom_singleLine hline, ih rest.length (readLineFrom_rest_lt hline) rest rfl⟩

lemma isspace_of_dropWhile {s rest : List UInt8} {c : UInt8} (h : s.dropWhile isspace = c :: rest) :
    isspace c = false := by
  have hhead : (s.dropWhile isspace).head (by simp [h]) = c := by simp [h]
  rw [← hhead]
  simpa using List.head_dropWhile_not isspace (by simp [h])

/-- The header that is found on a line can be printed on one. -/
lemma plainHeader_of_headerOfLine {line : CString} {it : Header} (htext : SingleLine line)
    (hkey : LineKeyNonEmpty line) (h : headerOfLine line = some it) : PlainHeader it := by
  rw [headerOfLine] at h
  cases hd : line.bytes.dropWhile (· != ch ':') with
  | nil => simp [hd] at h
  | cons colon ptr =>
    simp only [hd] at h
    split at h
    · cases h
    · next hv =>
      obtain rfl := Option.some.inj h
      have hptr : ∀ c ∈ ptr, c ∈ line.bytes := fun c hc =>
        (List.dropWhile_sublist _).subset (hd ▸ List.mem_cons_of_mem _ hc)
      have hvalue : ∀ c ∈ ptr.dropWhile isspace, c ∈ line.bytes := fun c hc =>
        hptr c ((List.dropWhile_sublist _).subset hc)
      have hname : ∀ c ∈ line.bytes.takeWhile (· != ch ':'), c ∈ line.bytes := fun c hc =>
        (List.takeWhile_sublist _).subset hc
      have hvbytes : (CString.ofBytes (ptr.dropWhile isspace)).bytes = ptr.dropWhile isspace :=
        CString.bytes_ofBytes_of_not_mem fun h0 => line.nul_free (hvalue 0 h0)
      have hkbytes : (CString.ofBytes (line.bytes.takeWhile (· != ch ':'))).bytes =
          line.bytes.takeWhile (· != ch ':') :=
        CString.bytes_ofBytes_of_not_mem fun h0 => line.nul_free (hname 0 h0)
      refine ⟨⟨?_, ?_⟩, _, rfl, ?_, ?_⟩
      · -- an empty key has been ruled out
        rw [hkbytes]
        intro hnil
        rw [LineKeyNonEmpty] at hkey
        cases hline : line.bytes with
        | nil => simp [hline] at hd
        | cons c s =>
          have hc : c = ch ':' := by
            by_contra hc
            simp [hline, hc] at hnil
          simp only [hline, hc] at hkey hd
          simp only [bne_self_eq_false, Bool.false_eq_true, not_false_eq_true,
            List.dropWhile_cons_of_neg, List.cons.injEq] at hd
          exact hv (hd.2 ▸ hkey trivial)
      · rw [hkbytes]
        intro c hc
        exact ⟨by simpa using List.mem_takeWhile_imp hc, htext c (hname c hc)⟩
      · obtain ⟨c, rest, hcons⟩ := List.exists_cons_of_ne_nil hv
        exact ⟨c, by rw [hvbytes, hcons]; rfl, isspace_of_dropWhile hcons⟩
      · intro c hc
        rw [hvbytes] at hc
        exact htext c (hvalue c hc)

/-! ### Reading a block -/

section Block

variable {heap : Heap} {input body : List UInt8} {headers : List Header}

/-- What a block is read to, by its lines. -/
lemma parsesTo_iff : ParsesTo heap input headers body ↔
    (∀ line ∈ (headerBlock heap input).lines, LineKeyNonEmpty line) ∧
      (headerBlock heap input).lines.filterMap headerOfLine = headers ∧
      (headerBlock heap input).rest = .ok body := by
  by_cases hkeys : ∀ line ∈ (headerBlock heap input).lines, LineKeyNonEmpty line
  · have hres := readHeadersFrom_of_keys heap { socket := { input } } hkeys
    have hinput : ({ socket := { input } } : Request).socket.input = input := rfl
    rw [readHeadersResult, hinput] at hres
    rw [ParsesTo]
    cases hrest : (headerBlock heap input).rest with
    | ok rest =>
      rw [hrest] at hres
      simp only [hres, Request.withInput, Request.withHeaders, EStateM.Result.ok.injEq, true_and,
        exists_eq_left', List.nil_append, Except.ok.injEq]
      exact ⟨fun h => ⟨hkeys, h⟩, fun h => h.2⟩
    | error e =>
      rw [hrest] at hres
      obtain ⟨input', hres⟩ := hres
      simp [hres]
  · obtain ⟨r', hr'⟩ := readHeadersFrom_of_not_keys heap { socket := { input } } hkeys
    simp [ParsesTo, hr', hkeys]

/-- Only headers that can be printed on a line are found. -/
lemma ParsesTo.plain (h : ParsesTo heap input headers body) : ∀ it ∈ headers, PlainHeader it := by
  obtain ⟨hkeys, rfl, -⟩ := parsesTo_iff.mp h
  intro it hit
  obtain ⟨line, hline, hheader⟩ := List.mem_filterMap.mp hit
  exact plainHeader_of_headerOfLine (headerBlock_singleLine heap input line hline)
    (hkeys line hline) hheader

end Block

/-! ### Printing a block -/

/-- The line of a header that can be printed. -/
lemma PlainHeader.exists_line {it : Header} (h : PlainHeader it) :
    ∃ line : HeaderLine, line.header = it ∧ line.bytes = printHeader it ∧ line.crlf = true := by
  obtain ⟨key, value⟩ := it
  obtain ⟨hkey, v, rfl, hstart, htext⟩ := h
  obtain ⟨c, hc, hspace⟩ := hstart
  obtain ⟨rest, hrest⟩ := List.head?_eq_some_iff.mp hc
  refine ⟨{
    key
    value := v
    crlf := true
    key_ne := hkey.ne
    key_text := hkey.text
    value_start := ⟨c, rest, hrest, hspace⟩
    value_text := htext }, rfl, ?_, rfl⟩
  simp [HeaderLine.bytes, HeaderLine.text, printHeader, eol]

lemma exists_lines {headers : List Header} (h : ∀ it ∈ headers, PlainHeader it) :
    ∃ lines : List HeaderLine, lines.map HeaderLine.header = headers ∧
      lines.flatMap HeaderLine.bytes = redhttpHeadersPrint headers ∧
      ∀ line ∈ lines, line.crlf = true ∧ line.bytes = printHeader line.header := by
  induction headers with
  | nil => exact ⟨[], rfl, rfl, by simp⟩
  | cons it headers ih =>
    obtain ⟨line, rfl, hbytes, hcrlf⟩ := (h it (by simp)).exists_line
    obtain ⟨lines, rfl, hprint, hlines⟩ := ih fun it hit => h it (by simp [hit])
    refine ⟨line :: lines, rfl, ?_, List.forall_mem_cons.mpr ⟨⟨hcrlf, hbytes⟩, hlines⟩⟩
    rw [List.flatMap_cons, hprint, hbytes, redhttpHeadersPrint, redhttpHeadersPrint,
      List.flatMap_cons]

/-- A printed line fits into the line buffer. -/
def FitsLine (it : Header) : Prop := (printHeader it).length ≤ 2 ^ 30

lemma readable_iff_fitsLine {heap : Heap} (h : heap.Ample) {line : HeaderLine}
    (hcrlf : line.crlf = true) (hbytes : line.bytes = printHeader line.header) :
    Readable heap (bufferedText line.text line.crlf).length ↔ FitsLine line.header := by
  rw [readable_iff_of_ample h, FitsLine, ← hbytes]
  simp only [bufferedText, HeaderLine.bytes, eol, hcrlf, if_true, List.length_append,
    List.length_singleton]
  have : (bytesOf "\r\n").length = 2 := rfl
  omega

/-- Headers that are read back from the block they were printed in had lines that fit. -/
lemma ParsesTo.fits {heap : Heap} (hample : heap.Ample) {headers : List Header}
    {body behind : List UInt8}
    (h : ParsesTo heap (redhttpHeadersPrint headers ++ (bytesOf "\r\n" ++ behind)) headers body) :
    ∀ it ∈ headers, FitsLine it := by
  obtain ⟨lines, hheaders, hprint, hlines⟩ := exists_lines h.plain
  intro it hit
  by_contra hfits
  have hlost : ¬ ∀ line ∈ lines, Readable heap (bufferedText line.text line.crlf).length := by
    intro hall
    obtain ⟨line, hline, rfl⟩ := List.mem_map.mp (hheaders ▸ hit)
    obtain ⟨hcrlf, hbytes⟩ := hlines line hline
    exact hfits ((readable_iff_fitsLine hample hcrlf hbytes).mp (hall line hline))
  -- the block ends with the line that is lost, and the headers found are too few
  obtain ⟨pre, lost, post, rfl, hfound⟩ :=
    headerBlock_of_not_readable (bytesOf "\r\n" ++ behind) hlost
  obtain ⟨-, hsame, -⟩ := parsesTo_iff.mp h
  rw [← hprint, hfound, filterMap_headerOfLine, ← hheaders] at hsame
  have := congrArg List.length hsame
  simp at this

/-- A header block is read back as it was printed exactly when its headers can be printed on
lines that fit into the line buffer. -/
theorem blockIntact_iff {headers : List Header} {body : List UInt8} :
    BlockIntact headers body ↔ ∀ it ∈ headers, PlainHeader it ∧ FitsLine it := by
  have hlineKeys : ∀ lines : List HeaderLine,
      ∀ line ∈ lines.map HeaderLine.string, LineKeyNonEmpty line := fun lines =>
    lineKeyNonEmpty_of_mem
  constructor
  · intro h
    have hample : Heap.Ample ⟨fun _ => true, fun _ => 0⟩ := fun _ => rfl
    have hparses := h _ hample
    exact fun it hit => ⟨hparses.plain it hit, hparses.fits hample it hit⟩
  · intro h heap hample
    obtain ⟨lines, hheaders, hprint, hlines⟩ := exists_lines fun it hit => (h it hit).1
    have hread : ∀ line ∈ lines,
        Readable heap (bufferedText line.text line.crlf).length := by
      intro line hline
      obtain ⟨hcrlf, hbytes⟩ := hlines line hline
      refine (readable_iff_fitsLine hample hcrlf hbytes).mpr (h _ ?_).2
      exact hheaders ▸ List.mem_map_of_mem hline
    have hblock : headerBlock heap (lines.flatMap HeaderLine.bytes ++ (bytesOf "\r\n" ++ body)) =
        ⟨lines.map HeaderLine.string, .ok body⟩ :=
      headerBlock_of_readable (hample _) true hread
    rw [parsesTo_iff, ← hprint, hblock]
    exact ⟨hlineKeys lines, (filterMap_headerOfLine lines).trans hheaders, rfl⟩

end RedStore.RedHttp
