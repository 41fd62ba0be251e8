/-
`redhttp_negotiate_to_string`, and reading back what it prints.

The first loop adds up what the second one writes: the quality takes six characters, whose
terminator is overwritten by what follows.  The string reads back as the list it was printed
from, since the entries of a list that was parsed are trimmed, free of the characters that
separate them, and sorted already.
-/
import RedStore.CLib.Block
import RedStore.CLib.Text
import RedStore.RedHttp.AcceptItems
import RedStore.RedHttp.NegotiateBest

namespace RedStore.RedHttp
open CLib

/-! ### `redhttp_negotiate_to_string` -/

/-- The first loop: the length of the string. -/
def stringLength : List Negotiate → ℕ
  | [] => 0
  | it :: next =>
    it.type.strlen + (if it.q ≠ 10 then 6 else 0) + (if next ≠ [] then 1 else 0) +
      stringLength next

/-- `;q=%1.1f` of a number of tenths. -/
def qualityText (q : ℕ) : List UInt8 :=
  bytesOf ";q=" ++ decimal (q / 10) ++ bytesOf "." ++ decimal (q % 10)

/-- The quality of an entry, unless it is the default. -/
def writeQuality (it : Negotiate) (ptr : ℕ) (str : List (Option UInt8)) :
    Except Fault (ℕ × List (Option UInt8)) :=
  if it.q ≠ 10 then do
    let str ← snprintf 7 (qualityText it.q) ptr str
    .ok (ptr + 6, str)
  else .ok (ptr, str)

/-- The comma in front of the next entry. -/
def writeComma (next : List Negotiate) (ptr : ℕ) (str : List (Option UInt8)) :
    Except Fault (ℕ × List (Option UInt8)) :=
  if next ≠ [] then do
    let str ← store [some (ch ',')] ptr str
    .ok (ptr + 1, str)
  else .ok (ptr, str)

/-- The second loop, from the position that it has come to. -/
def writeEntries : List Negotiate → ℕ → List (Option UInt8) →
    Except Fault (ℕ × List (Option UInt8))
  | [], ptr, str => .ok (ptr, str)
  | it :: next, ptr, str => do
    -- memcpy(ptr, it->type, type_len)
    let str ← store (it.type.bytes.map some) ptr str
    let (ptr, str) ← writeQuality it (ptr + it.type.strlen) str
    let (ptr, str) ← writeComma next ptr str
    writeEntries next ptr str

/-- `redhttp_negotiate_to_string`: the block it returns, or NULL. -/
def redhttpNegotiateToString (heap : Heap) (first : List Negotiate) :
    Except Fault (Option (List (Option UInt8))) :=
  let size := stringLength first + 1
  if heap.malloc size then do
    let (ptr, str) ← writeEntries first 0 (uninitialized size)
    let str ← store [some 0] ptr str
    .ok (some str)
  else .ok none

/-! ### What is written -/

/-- The quality in the text of an entry. -/
def qualitySuffix (it : Negotiate) : List UInt8 := if it.q ≠ 10 then qualityText it.q else []

/-- The comma behind an entry. -/
def commaBefore (next : List Negotiate) : List UInt8 := if next ≠ [] then [ch ','] else []

/-- The text of an entry. -/
def entryText (it : Negotiate) : List UInt8 := it.type.bytes ++ qualitySuffix it

/-- The text of a list. -/
def listText (list : List Negotiate) : List UInt8 := [ch ','].intercalate (list.map entryText)

lemma length_qualityText {q : ℕ} (h : q < 10) : (qualityText q).length = 6 := by
  have hall : ∀ q : Fin 10, (qualityText q).length = 6 := by decide
  exact hall ⟨q, h⟩

lemma length_qualitySuffix {it : Negotiate} (h : it.q ≤ 10) :
    (qualitySuffix it).length = if it.q ≠ 10 then 6 else 0 := by
  rw [qualitySuffix]
  split_ifs with hq
  · exact length_qualityText (by omega)
  · rfl

lemma listText_cons (it : Negotiate) (next : List Negotiate) :
    listText (it :: next) = it.type.bytes ++ qualitySuffix it ++ commaBefore next ++
      listText next := by
  cases next with
  | nil => simp [listText, List.intercalate, entryText, commaBefore]
  | cons a next => simp [listText, List.intercalate, entryText, commaBefore]

/-- The first loop counts the characters. -/
lemma length_listText {list : List Negotiate} (h : ∀ it ∈ list, it.q ≤ 10) :
    (listText list).length = stringLength list := by
  induction list with
  | nil => rfl
  | cons it next ih =>
    rw [List.forall_mem_cons] at h
    have hcomma : (commaBefore next).length = if next ≠ [] then 1 else 0 := by
      rw [commaBefore]
      split_ifs <;> rfl
    simp only [listText_cons, List.length_append, length_qualitySuffix h.1, hcomma, ih h.2,
      stringLength, CString.strlen]

/-- The position behind the text written so far, in a block with some room behind it. -/
structure Written (text : List UInt8) (room ptr : ℕ) (str : List (Option UInt8)) : Prop where
  at_end : ptr = text.length
  block : ∃ behind, str = text.map some ++ behind ∧ behind.length = room

section Written

variable {text : List UInt8} {room ptr : ℕ} {str : List (Option UInt8)}

lemma Written.of_eq {text' : List UInt8} {room' : ℕ} (h : Written text room ptr str)
    (htext : text = text') (hroom : room = room') : Written text' room' ptr str :=
  htext ▸ hroom ▸ h

/-- A store puts more text behind the text. -/
lemma Written.store (more : List UInt8) (h : Written text room ptr str) (hroom : more.length ≤ room) :
    ∃ str', CLib.store (more.map some) ptr str = .ok str' ∧
      Written (text ++ more) (room - more.length) (ptr + more.length) str' := by
  obtain ⟨rfl, behind, rfl, rfl⟩ := h
  have hstore := store_behind (text.map some) (more.map some) behind (by simpa using hroom)
  rw [List.length_map] at hstore
  exact ⟨_, hstore, by simp, behind.drop more.length, by simp, by simp⟩

/-- The terminator of the quality is room again. -/
lemma writeQuality_apply {it : Negotiate} (h : Written text room ptr str) (hit : it.q ≤ 10)
    (hroom : (qualitySuffix it).length < room) :
    ∃ ptr' str', writeQuality it ptr str = .ok (ptr', str') ∧
      Written (text ++ qualitySuffix it) (room - (qualitySuffix it).length) ptr' str' := by
  by_cases hq : it.q ≠ 10
  · have hsuffix : qualitySuffix it = qualityText it.q := if_pos hq
    have hlength : (qualityText it.q).length = 6 := length_qualityText (by omega)
    rw [hsuffix, hlength] at hroom ⊢
    obtain ⟨str', hstore, hend, behind, rfl, hbehind⟩ :=
      h.store (qualityText it.q ++ [0]) (by simpa [hlength] using Nat.succ_le_of_lt hroom)
    have hrun : writeQuality it ptr str = .ok (ptr + 6,
        (text ++ (qualityText it.q ++ [0])).map some ++ behind) := by
      rw [writeQuality, if_pos hq, snprintf, List.take_of_length_le (by omega), hstore]
      rfl
    refine ⟨_, _, hrun, ?_, some 0 :: behind, by simp, ?_⟩
    · rw [List.length_append, ← h.at_end, hlength]
    · simp only [List.length_append, hlength, List.length_singleton] at hbehind
      rw [List.length_cons, hbehind]
      omega
  · have hsuffix : qualitySuffix it = [] := if_neg hq
    refine ⟨ptr, str, by rw [writeQuality, if_neg hq], ?_⟩
    simpa [hsuffix] using h

lemma writeComma_apply (next : List Negotiate) (h : Written text room ptr str)
    (hroom : (commaBefore next).length ≤ room) :
    ∃ ptr' str', writeComma next ptr str = .ok (ptr', str') ∧
      Written (text ++ commaBefore next) (room - (commaBefore next).length) ptr' str' := by
  by_cases hnext : next ≠ []
  · have hcomma : commaBefore next = [ch ','] := if_pos hnext
    rw [hcomma] at hroom ⊢
    obtain ⟨str', hstore, h'⟩ := h.store [ch ','] hroom
    refine ⟨_, str', ?_, h'⟩
    rw [List.map_singleton] at hstore
    rw [writeComma, if_pos hnext, hstore]
    rfl
  · have hcomma : commaBefore next = [] := if_neg hnext
    refine ⟨ptr, str, by rw [writeComma, if_neg hnext], ?_⟩
    simpa [hcomma] using h

end Written

/-- The second loop writes the text of the list, and leaves room for the terminator. -/
lemma writeEntries_apply {list : List Negotiate} (hlist : ∀ it ∈ list, it.q ≤ 10)
    {text : List UInt8} {room ptr : ℕ} {str : List (Option UInt8)}
    (h : Written text room ptr str) (hroom : (listText list).length < room) :
    ∃ ptr' str', writeEntries list ptr str = .ok (ptr', str') ∧
      Written (text ++ listText list) (room - (listText list).length) ptr' str' := by
  induction list generalizing text room ptr str with
  | nil => exact ⟨ptr, str, rfl, h.of_eq (List.append_nil text).symm rfl⟩
  | cons it next ih =>
    rw [List.forall_mem_cons] at hlist
    rw [listText_cons] at hroom ⊢
    simp only [List.length_append] at hroom
    obtain ⟨str₁, hstore, h₁⟩ := h.store it.type.bytes (by omega)
    obtain ⟨ptr₂, str₂, hquality, h₂⟩ := writeQuality_apply h₁ hlist.1 (by omega)
    obtain ⟨ptr₃, str₃, hcomma, h₃⟩ := writeComma_apply next h₂ (by omega)
    obtain ⟨ptr₄, str₄, hrest, h₄⟩ := ih hlist.2 h₃ (by omega)
    refine ⟨ptr₄, str₄, ?_, h₄.of_eq (by simp) ?_⟩
    · rw [← CString.strlen] at hquality
      simp only [writeEntries, hstore, hquality, hcomma, bind, Except.bind]
      exact hrest
    · simp only [List.length_append]
      omega

/-- What is returned is the text of the list with its terminator, which fill the block. -/
theorem redhttpNegotiateToString_apply {heap : Heap} {list : List Negotiate}
    (hlist : ∀ it ∈ list, it.q ≤ 10) (hmalloc : heap.malloc (stringLength list + 1) = true) :
    redhttpNegotiateToString heap list = .ok (some ((listText list ++ [0]).map some)) := by
  have hlength := length_listText hlist
  have hstart : Written [] (stringLength list + 1) 0 (uninitialized (stringLength list + 1)) :=
    ⟨rfl, uninitialized (stringLength list + 1), rfl, List.length_replicate⟩
  obtain ⟨ptr, str, hentries, h⟩ := writeEntries_apply hlist hstart (by omega)
  obtain ⟨str', hstore, -, behind, rfl, hbehind⟩ := h.store [0] (by simp; omega)
  have hnil : behind = [] := by
    rw [← List.length_eq_zero_iff, hbehind, hlength]
    simp
  rw [List.map_singleton] at hstore
  rw [redhttpNegotiateToString, if_pos hmalloc]
  simp only [hentries, hstore, hnil, bind, Except.bind, List.nil_append, List.append_nil]

/-! ### What was parsed -/

/-- An entry that reads back from its text. -/
structure Printable (it : Negotiate) : Prop where
  quality : it.q ≤ 10
  named : it.type.bytes ≠ []
  trimmed : (it.type.bytes.dropWhile isspace).rdropWhile isspace = it.type.bytes
  no_comma : ch ',' ∉ it.type.bytes
  no_semicolon : ch ';' ∉ it.type.bytes

/-- What has been trimmed on both sides stays as it is. -/
lemma trim_trim (type : List UInt8) :
    (((type.dropWhile isspace).rdropWhile isspace).dropWhile isspace).rdropWhile isspace =
      (type.dropWhile isspace).rdropWhile isspace := by
  cases htrim : (type.dropWhile isspace).rdropWhile isspace with
  | nil => rfl
  | cons c t =>
    obtain ⟨tail, htail⟩ := List.rdropWhile_prefix isspace (type.dropWhile isspace)
    have hhead := List.head?_dropWhile_not isspace type
    rw [← htail, htrim, List.cons_append, List.head?_cons] at hhead
    have hc : ¬ isspace c = true := by simpa using hhead
    rw [List.dropWhile_cons_of_neg hc, ← htrim]
    exact List.rdropWhile_idempotent isspace _

/-- The entry of an item that names something. -/
lemma printable_itemCall {s : CString} {item : List UInt8} (hitem : item ∈ negotiateItems s.bytes)
    (hnamed : ItemNamed item) : Printable (itemCall item).entry := by
  have hsub : (((itemType item).dropWhile isspace).rdropWhile isspace).Sublist item :=
    (List.rdropWhile_prefix isspace _).sublist.trans
      ((List.dropWhile_sublist _).trans (List.takeWhile_sublist _))
  have hnul : (0 : UInt8) ∉ ((itemType item).dropWhile isspace).rdropWhile isspace :=
    fun hmem => s.nul_free (subset_of_mem_negotiateItems hitem (hsub.subset hmem))
  have htype : (itemCall item).entry.type.bytes =
      ((itemType item).dropWhile isspace).rdropWhile isspace :=
    CString.bytes_ofBytes_of_not_mem hnul
  refine ⟨?_, ?_, ?_, ?_, ?_⟩
  · exact scanQuality_le _ _ le_rfl
  · rw [htype]
    refine rdropWhile_dropWhile_ne_nil fun hnil => ?_
    obtain ⟨c, hc, hspace⟩ := hnamed
    rw [List.dropWhile_eq_nil_iff] at hnil
    simp [hnil c hc] at hspace
  · rw [htype, trim_trim]
  · rw [htype]
    exact fun hmem => not_comma_of_mem_negotiateItems hitem (hsub.subset hmem)
  · rw [htype]
    intro hmem
    have hin : ch ';' ∈ itemType item :=
      (List.dropWhile_sublist _).subset ((List.rdropWhile_prefix isspace _).subset hmem)
    simpa using List.mem_takeWhile_imp hin

/-! ### Reading back -/

lemma not_comma_of_mem_entryText {it : Negotiate} (h : Printable it) : ch ',' ∉ entryText it := by
  rw [entryText, List.mem_append, not_or]
  refine ⟨h.no_comma, ?_⟩
  rw [qualitySuffix]
  split_ifs with hq
  · have hall : ∀ q : Fin 10, ch ',' ∉ qualityText q := by decide
    have hquality := h.quality
    exact hall ⟨it.q, by omega⟩
  · exact List.not_mem_nil

/-- An entry is read with the type and the quality that it was printed with. -/
lemma itemCall_entryText {it : Negotiate} (h : Printable it) :
    itemCall (entryText it) = ⟨it.type.bytes, it.q⟩ := by
  have hsuffix : (qualitySuffix it).takeWhile (· != ch ';') = [] := by
    rw [qualitySuffix]
    split_ifs <;> rfl
  have htype : (entryText it).takeWhile (· != ch ';') = it.type.bytes := by
    rw [entryText, takeWhile_bne_append h.no_semicolon, hsuffix, List.append_nil]
  have hself : (entryText it).takeWhile (· != ch ',') = entryText it :=
    takeWhile_bne_eq_self_iff.mpr (not_comma_of_mem_entryText h)
  have hdrop : (entryText it).drop it.type.bytes.length = qualitySuffix it := by
    rw [entryText, List.drop_left]
  have hlength : (entryText it).length - it.type.bytes.length = (qualitySuffix it).length := by
    rw [entryText, List.length_append, Nat.add_sub_cancel_left]
  have hscan : scanQuality (qualitySuffix it).length (qualitySuffix it) 10 = it.q := by
    have hquality := h.quality
    rw [length_qualitySuffix hquality, qualitySuffix]
    split_ifs with hq
    · have hall : ∀ q : Fin 10, scanQuality 6 (qualityText q) 10 = q := by decide +kernel
      exact hall ⟨it.q, by omega⟩
    · exact (not_not.mp hq).symm
  simp only [itemCall, itemType, parseItem, hself, htype, hdrop, hlength, hscan]

lemma entry_of_printable {it : Negotiate} (h : Printable it) :
    AddCall.entry ⟨it.type.bytes, it.q⟩ = it := by
  have htype : CString.ofBytes ((it.type.bytes.dropWhile isspace).rdropWhile isspace) =
      it.type := by
    rw [h.trimmed, CString.ofBytes_bytes]
  rw [AddCall.entry, htype]

lemma itemNamed_entryText {it : Negotiate} (h : Printable it) : ItemNamed (entryText it) := by
  have htype : itemType (entryText it) = it.type.bytes :=
    congrArg AddCall.type (itemCall_entryText h)
  rw [ItemNamed, htype]
  by_contra hall
  push Not at hall
  have hnil : it.type.bytes.dropWhile isspace = [] :=
    List.dropWhile_eq_nil_iff.mpr fun c hc => by simpa using hall c hc
  have htrimmed := h.trimmed
  rw [hnil] at htrimmed
  exact h.named htrimmed.symm

/-- The text of a sorted list reads back as the list. -/
lemma parse_listText {list : List Negotiate} {text : CString} (htext : text.bytes = listText list)
    (hlist : ∀ it ∈ list, Printable it) (hsorted : list.Pairwise fun a b => b.q ≤ a.q) :
    redhttpNegotiateParse (some text) = .ok list := by
  cases list with
  | nil =>
    have hnil : text.bytes = [] := htext
    rw [redhttpNegotiateParse, if_pos hnil]
  | cons it next =>
    have hitems : negotiateItems text.bytes = (it :: next).map entryText := by
      rw [htext]
      refine negotiateItems_join ?_ (List.cons_ne_nil _ _)
      rw [List.forall_mem_map]
      exact fun it hit => not_comma_of_mem_entryText (hlist it hit)
    have hne : text.bytes ≠ [] := by
      rw [htext, listText_cons]
      simp [(hlist it (by simp)).named]
    have hnamed : ∀ item ∈ negotiateItems text.bytes, ItemNamed item := by
      rw [hitems, List.forall_mem_map]
      exact fun it hit => itemNamed_entryText (hlist it hit)
    obtain ⟨list, hrun, hstable⟩ := redhttpNegotiateParse_stable hne hnamed
    have hentries : ((negotiateItems text.bytes).map fun item => (itemCall item).entry) =
        it :: next := by
      rw [hitems, List.map_map]
      refine (List.map_congr_left fun it hit => ?_).trans (List.map_id _)
      rw [Function.comp_apply, itemCall_entryText (hlist it hit), entry_of_printable (hlist it hit),
        id]
    rw [hentries] at hstable
    rw [hrun, hstable.unique (StableSort.refl hsorted)]

lemma nul_free_listText {list : List Negotiate} (h : ∀ it ∈ list, Printable it) :
    (0 : UInt8) ∉ listText list := by
  intro hmem
  rcases mem_join hmem with hcomma | ⟨text, htext, hzero⟩
  · exact absurd hcomma (by decide)
  · obtain ⟨it, hit, rfl⟩ := List.mem_map.mp htext
    rw [entryText, List.mem_append, qualitySuffix] at hzero
    rcases hzero with hzero | hzero
    · exact it.type.nul_free hzero
    · split_ifs at hzero with hq
      · have hall : ∀ q : Fin 10, (0 : UInt8) ∉ qualityText q := by decide
        have hquality := (h it hit).quality
        exact hall ⟨it.q, by omega⟩ hzero
      · cases hzero

/-- What is parsed is printed into a block of just its size, if there is memory for one, and
reads back as it was. -/
theorem redhttpNegotiateToString_parse (heap : Heap) (str : Option CString)
    (h : ∀ s ∈ str, s.bytes ≠ [] → ∀ item ∈ negotiateItems s.bytes, ItemNamed item) :
    ∃ list, redhttpNegotiateParse str = .ok list ∧
      if heap.malloc (stringLength list + 1) then
        ∃ text : CString, text.strlen = stringLength list ∧
          redhttpNegotiateToString heap list = .ok (some ((text.bytes ++ [0]).map some)) ∧
          redhttpNegotiateParse (some text) = .ok list
      else redhttpNegotiateToString heap list = .ok none := by
  obtain ⟨list, hlist, hprintable⟩ : ∃ list, redhttpNegotiateParse str = .ok list ∧
      ∀ it ∈ list, Printable it := by
    cases str with
    | none => exact ⟨[], rfl, by simp⟩
    | some s =>
      by_cases hs : s.bytes = []
      · exact ⟨[], by rw [redhttpNegotiateParse, if_pos hs], by simp⟩
      · have hnamed := h s rfl hs
        obtain ⟨list, hlist, hstable⟩ := redhttpNegotiateParse_stable hs hnamed
        refine ⟨list, hlist, fun it hit => ?_⟩
        obtain ⟨item, hitem, rfl⟩ := List.mem_map.mp (hstable.perm.mem_iff.mp hit)
        exact printable_itemCall hitem (hnamed item hitem)
  refine ⟨list, hlist, ?_⟩
  split_ifs with hmalloc
  · have hle : ∀ it ∈ list, it.q ≤ 10 := fun it hit => (hprintable it hit).quality
    have hsorted := redhttpNegotiateParse_decreasing hlist
    exact ⟨⟨listText list, nul_free_listText hprintable⟩, length_listText hle,
      redhttpNegotiateToString_apply hle hmalloc, parse_listText rfl hprintable hsorted⟩
  · rw [redhttpNegotiateToString, if_neg hmalloc]

/-- Three types, of which the last one comes first. -/
theorem redhttpNegotiateToString_parse_three :
    (∀ item ∈ negotiateItems (CString.lit "text/plain;q=0.8, foo/bar").bytes, ItemNamed item) ∧
      ∃ list, redhttpNegotiateParse (some (CString.lit "text/plain;q=0.8, foo/bar")) = .ok list ∧
        ∃ text : CString, text.strlen = stringLength list ∧
          redhttpNegotiateToString ⟨fun _ => true, fun _ => 0⟩ list =
            .ok (some ((text.bytes ++ [0]).map some)) ∧
          redhttpNegotiateParse (some text) = .ok list := by
  have hnamed : ∀ item ∈ negotiateItems (CString.lit "text/plain;q=0.8, foo/bar").bytes,
      ItemNamed item := by decide
  refine ⟨hnamed, ?_⟩
  obtain ⟨list, hlist, htext⟩ := redhttpNegotiateToString_parse ⟨fun _ => true, fun _ => 0⟩
    (some (CString.lit "text/plain;q=0.8, foo/bar")) (fun s hs _ => by
      obtain rfl := Option.some.inj hs
      exact hnamed)
  exact ⟨list, hlist, htext⟩

end RedStore.RedHttp
