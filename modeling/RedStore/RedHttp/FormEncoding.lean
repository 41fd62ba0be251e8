/-
Fields that are written into a request, and read from it again.

A field is a name with or without a value.  Fields are written one behind the other with a
separator between them, names and values encoded in any way that decodes to them, with
`redhttp_url_escape` or otherwise.  `redhttp_request_read` finds them again in the target of a
request and in its form, in their order, those of the target first.
-/
import RedStore.RedHttp.ReadBack
import RedStore.RedHttp.UrlDecoding
import RedStore.RedHttp.UrlRoundTrip

namespace RedStore.RedHttp
open CLib

/-! ### Written fields -/

/-- The name of a field, and its value if it has one. -/
abbrev Field := CString × Option CString

/-- The entry that a field is read as. -/
def Field.stored (f : Field) : Header := ⟨f.1, storedValue f.2⟩

/-- A text that decodes to a string and does not look like the end of a segment. -/
structure WrittenText (s : CString) (t : List UInt8) : Prop where
  decoding : Decoding t s.bytes
  plain : ∀ c ∈ t, isSeparator c = false

/-- A field is written as its name alone, or with `=` and its value behind it. -/
inductive WrittenField : Field → List UInt8 → Prop where
  | bare {key : CString} {k : List UInt8} (hk : WrittenText key k) (heq : ch '=' ∉ k) :
    WrittenField (key, none) k
  | valued {key value : CString} {k v : List UInt8} (hk : WrittenText key k) (heq : ch '=' ∉ k)
    (hv : WrittenText value v) : WrittenField (key, some value) (k ++ ch '=' :: v)

/-- Fields with separators between them, and perhaps one behind the last. -/
inductive WrittenForm : List Field → List UInt8 → Prop where
  | nil : WrittenForm [] []
  | last {f : Field} {s : List UInt8} (h : WrittenField f s) : WrittenForm [f] s
  | cons {f : Field} {s t : List UInt8} {fields : List Field} {c : UInt8} (h : WrittenField f s)
    (hc : isSeparator c = true) (ht : WrittenForm fields t) : WrittenForm (f :: fields) (s ++ c :: t)

/-- A path, and fields behind a question mark. -/
inductive WrittenTarget (path : CString) : List Field → List UInt8 → Prop where
  | plain {t : List UInt8} (ht : Decoding t path.bytes) (hmark : ch '?' ∉ t) :
    WrittenTarget path [] t
  | asked {t s : List UInt8} {fields : List Field} (ht : Decoding t path.bytes) (hmark : ch '?' ∉ t)
    (hs : WrittenForm fields s) : WrittenTarget path fields (t ++ ch '?' :: s)

/-- No name is empty. -/
def Named (fields : List Field) : Prop := ∀ f ∈ fields, f.1.strlen ≠ 0

instance : DecidablePred Named := fun fields =>
  inferInstanceAs (Decidable (∀ f ∈ fields, f.1.strlen ≠ 0))

/-! ### Reading what is written -/

section Written

variable {key value : CString} {k v s t : List UInt8} {f : Field} {fields : List Field}

lemma unescaped_of_decoding {path : CString} (h : Decoding t path.bytes) : unescaped t = path := by
  rw [unescaped, ← decoding_iff.mp h, CString.ofBytes_bytes]

lemma WrittenText.unescaped (h : WrittenText key k) : unescaped k = key :=
  unescaped_of_decoding h.decoding

lemma WrittenText.ne_nil (h : WrittenText key k) (hkey : key.strlen ≠ 0) : k ≠ [] := by
  rintro rfl
  have hnil : key.bytes = [] := decoding_iff.mp h.decoding
  exact hkey (by rw [CString.strlen, hnil, List.length_nil])

lemma WrittenField.plain (h : WrittenField f s) : ∀ c ∈ s, isSeparator c = false := by
  cases h with
  | bare hk heq => exact hk.plain
  | valued hk heq hv =>
    intro c hc
    rcases List.mem_append.mp hc with hc | hc
    · exact hk.plain c hc
    · rcases List.mem_cons.mp hc with rfl | hc
      · decide
      · exact hv.plain c hc

lemma WrittenField.ne_nil (h : WrittenField f s) (hf : f.1.strlen ≠ 0) : s ≠ [] := by
  cases h with
  | bare hk heq => exact hk.ne_nil hf
  | valued hk heq hv => simp

lemma WrittenField.segmentKey (h : WrittenField f s) : unescaped (segmentKey s) = f.1 := by
  cases h with
  | bare hk heq => rw [RedHttp.segmentKey, takeWhile_bne_eq_self_iff.mpr heq, hk.unescaped]
  | valued hk heq hv =>
    rw [RedHttp.segmentKey, takeWhile_bne_append heq, List.takeWhile_cons_of_neg (by decide),
      List.append_nil, hk.unescaped]

lemma WrittenField.segmentHeader (h : WrittenField f s) :
    RedHttp.segmentHeader s = Field.stored f := by
  have hvalue : (segmentValue s).map RedHttp.unescaped = f.2 := by
    cases h with
    | bare hk heq => rw [segmentValue, strchr_eq_none_iff.mpr heq]; rfl
    | valued hk heq hv =>
      rw [segmentValue, strchr_append_of_not_mem heq, strchr_cons_self]
      simp [hv.unescaped]
  rw [RedHttp.segmentHeader, h.segmentKey, hvalue]
  rfl

/-- The segments of a form are its fields. -/
lemma WrittenForm.segments (h : WrittenForm fields s) (hnamed : Named fields) :
    KeysNonEmpty s ∧ (argumentSegments s).map segmentHeader = fields.map Field.stored := by
  induction h with
  | nil => exact ⟨fun seg hseg => absurd hseg List.not_mem_nil, rfl⟩
  | last h =>
    have hf := hnamed _ List.mem_cons_self
    have hsegments := argumentSegments_of_last h.plain (h.ne_nil hf)
    refine ⟨fun seg hseg => ?_, ?_⟩
    · rw [hsegments, List.mem_singleton] at hseg
      rwa [hseg, h.segmentKey]
    · rw [hsegments, List.map_singleton, List.map_singleton, h.segmentHeader]
  | @cons f s t fields c h hc ht ih =>
    have hf := hnamed _ List.mem_cons_self
    obtain ⟨hkeys, hmap⟩ := ih fun f' hf' => hnamed f' (List.mem_cons_of_mem _ hf')
    have hsegments := argumentSegments_cons h.plain hc t
    refine ⟨fun seg hseg => ?_, ?_⟩
    · rw [hsegments] at hseg
      rcases List.mem_cons.mp hseg with rfl | hseg
      · rwa [h.segmentKey]
      · exact hkeys seg hseg
    · rw [hsegments, List.map_cons, List.map_cons, h.segmentHeader, hmap]

/-- The path of a target and its fields. -/
lemma WrittenTarget.parts {path target : CString} (h : WrittenTarget path fields target.bytes)
    (hnamed : Named fields) : pathOf target = path ∧
      (argumentSegments (queryBytes target)).map segmentHeader = fields.map Field.stored := by
  generalize hbytes : target.bytes = bytes at h
  cases h with
  | plain ht hmark =>
    rw [pathOf, queryBytes, queryStringOf, hbytes, takeWhile_bne_eq_self_iff.mpr hmark,
      strchr_eq_none_iff.mpr hmark]
    exact ⟨unescaped_of_decoding ht, rfl⟩
  | @asked t s _ ht hmark hs =>
    have hquery : queryBytes target = s := by
      have hfree : (0 : UInt8) ∉ s := by
        intro hmem
        exact target.nul_free (by rw [hbytes]; simp [hmem])
      rw [queryBytes, queryStringOf, hbytes, strchr_append_of_not_mem hmark, strchr_cons_self]
      simp [CString.bytes_ofBytes_of_not_mem hfree]
    rw [pathOf, hbytes, takeWhile_bne_append hmark, List.takeWhile_cons_of_neg (by decide),
      List.append_nil, hquery]
    exact ⟨unescaped_of_decoding ht, (hs.segments hnamed).2⟩

end Written

/-! ### Encoding -/

lemma not_isSeparator_of_isurlsafe {c : UInt8} (h : isurlsafe c = true) :
    isSeparator c = false := by
  rw [isSeparator, Bool.or_eq_false_iff, beq_eq_false_iff_ne, beq_eq_false_iff_ne]
  constructor <;> rintro rfl <;> exact absurd h (by decide)

/-- A field with its name and its value as `redhttp_url_escape` writes them. -/
def escapeField (f : Field) : Except Fault (List UInt8) := do
  let key ← redhttpUrlEscape f.1.bytes
  match f.2 with
  | none => .ok key
  | some value => do
    let value ← redhttpUrlEscape value.bytes
    .ok (key ++ ch '=' :: value)

/-- Fields with `&` behind each of them. -/
def escapeForm : List Field → Except Fault (List UInt8)
  | [] => .ok []
  | f :: fields => do
    let field ← escapeField f
    let form ← escapeForm fields
    .ok (field ++ ch '&' :: form)

/-- A field of ASCII characters. -/
def Field.Ascii (f : Field) : Prop :=
  (∀ c ∈ f.1.bytes, c < 128) ∧ ∀ value ∈ f.2, ∀ c ∈ value.bytes, c < 128

lemma writtenText_of_escape {s : CString} {t : List UInt8}
    (h : redhttpUrlEscape s.bytes = .ok t) : WrittenText s t ∧ ch '=' ∉ t := by
  have hfrom := escapedFrom_of_ok h
  have hplain : ∀ c ∈ t, isSeparator c = false := by
    intro c hc
    rcases hfrom.text.forall_mem c hc with hsafe | rfl
    · exact not_isSeparator_of_isurlsafe hsafe
    · decide
  exact ⟨⟨decoding_iff.mpr hfrom.unescape.symm, hplain⟩,
    hfrom.text.not_mem (by decide) (by decide)⟩

/-- What `redhttp_url_escape` makes of the names and values is a form of the fields, if they are
ASCII. -/
lemma exists_escapeForm {fields : List Field} (h : ∀ f ∈ fields, f.Ascii) :
    ∃ s, escapeForm fields = .ok s ∧ WrittenForm fields s := by
  induction fields with
  | nil => exact ⟨[], rfl, .nil⟩
  | cons f fields ih =>
    obtain ⟨form, hform, hwritten⟩ := ih fun f' hf' => h f' (List.mem_cons_of_mem _ hf')
    obtain ⟨hname, hvalue⟩ := h f List.mem_cons_self
    obtain ⟨k, hk⟩ := (redhttpUrlEscape_ok_iff f.1.bytes).mpr hname
    obtain ⟨hkey, hequals⟩ := writtenText_of_escape hk
    obtain ⟨key, value⟩ := f
    cases value with
    | none =>
      have hfield : escapeField (key, none) = .ok k := by rw [escapeField, hk]; rfl
      refine ⟨k ++ ch '&' :: form, ?_, .cons (.bare hkey hequals) (by decide) hwritten⟩
      rw [escapeForm, hfield, hform]
      rfl
    | some value =>
      obtain ⟨v, hv⟩ := (redhttpUrlEscape_ok_iff value.bytes).mpr (hvalue value rfl)
      have hfield : escapeField (key, some value) = .ok (k ++ ch '=' :: v) := by
        rw [escapeField, hk]
        show (redhttpUrlEscape value.bytes >>= _) = _
        rw [hv]
        rfl
      refine ⟨(k ++ ch '=' :: v) ++ ch '&' :: form, ?_, .cons
        (.valued hkey hequals (writtenText_of_escape hv).1) (by decide) hwritten⟩
      rw [escapeForm, hfield, hform]
      rfl

/-! ### Forms -/

/-- A request that sends a form. -/
structure SendsForm (heap : Heap) (w : RequestText) (form : CString) : Prop where
  post : w.upperMethod = CString.lit "POST"
  type : ∃ contentType, redhttpHeadersGet w.head.headers (CString.lit "Content-Type") =
    some contentType ∧
      (bytesOf "application/x-www-form-urlencoded").isPrefixOf contentType.bytes = true
  length : ∃ contentLength, redhttpHeadersGet w.head.headers (CString.lit "Content-Length") =
    some contentLength ∧ atoi contentLength = form.strlen
  body : form.bytes <+: w.further
  room : heap.malloc (form.strlen + 1) = true
  keys : KeysNonEmpty form.bytes

/-- The arguments that a form is read as. -/
def sentArguments (form : CString) : List Header :=
  (argumentSegments form.bytes).map segmentHeader

/-- A request behind its form. -/
def afterForm (w : RequestText) (form : CString) (r : Request) : Request :=
  { bodyTaken (afterHeaders w r) (form.strlen + 1) form.strlen with
    arguments := (afterHeaders w r).arguments ++ sentArguments form }

section Read

variable {heap : Heap} {w : RequestText} {form : CString} {r : Request}

/-- A form is read to its end, and its fields become arguments. -/
lemma SendsForm.read (h : SendsForm heap w form) (hlines : w.LinesReadable heap)
    (hr : FreshOn w r) : redhttpRequestRead heap r = .ok 0 (afterForm w form r) := by
  have hpost : (bytesOf "POST").isPrefixOf (w.method.bytes.map toupper) = true := by
    have hbytes := congrArg CString.bytes h.post
    rw [show w.method.bytes.map toupper = _ from hbytes]
    decide
  obtain ⟨contentType, htype, hencoded⟩ := h.type
  obtain ⟨contentLength, hlength, hatoi⟩ := h.length
  have hheaders : (afterHeaders w r).headers = w.head.headers :=
    congrArg RequestHead.headers (head_afterHeaders hr)
  have hget : ∀ key, (afterHeaders w r).getHeader key = redhttpHeadersGet w.head.headers key := by
    intro key
    rw [Request.getHeader, hheaders]
  have hint : form.strlen < intRange := by
    have hlt := intOfSize_lt (strtol contentLength)
    rw [← atoi, hatoi] at hlt
    omega
  have hrange : intRange + 1 < sizeRange := by decide
  have hsize : sizeOfInt (atoi contentLength) = form.strlen := by
    rw [hatoi, sizeOfInt_of_nonneg (by omega) (by omega), Int.toNat_natCast]
  have hplus : (form.strlen + 1) % sizeRange = form.strlen + 1 := Nat.mod_eq_of_lt (by omega)
  have htaken : (afterHeaders w r).socket.input.take form.strlen = form.bytes := by
    obtain ⟨rest, hrest⟩ := h.body
    show w.further.take form.strlen = _
    rw [← hrest, CString.strlen, List.take_left]
  have hbody : formBodyRead form.strlen form.bytes = .complete form.bytes := by
    have hfull : intOfSize form.bytes.length = form.strlen :=
      intOfSize_of_lt (by omega) (by rw [← CString.strlen]; omega)
    rw [formBodyRead, hfull, ← hatoi, hsize]
    simp
  have hform : readFormBody heap contentLength (afterHeaders w r) =
      .ok (.complete form.bytes)
        (bodyTaken (afterHeaders w r) (form.strlen + 1) form.strlen) := by
    have hfits : ¬ form.strlen + 1 < form.bytes.length := by rw [← CString.strlen]; omega
    rw [readFormBody_eq hsize hplus, if_pos h.room, htaken, if_neg hfits, hbody]
  have hcontent : redhttpRequestReadContent heap (afterHeaders w r) =
      .ok 0 (afterForm w form r) := by
    rw [redhttpRequestReadContent, bind_of_ok (get_apply _)]
    simp only [hget, htype, hlength, hencoded, hform, if_true, bind_apply, CString.ofBytes_bytes,
      parseArguments_of_keys h.keys]
    rfl
  rw [read_of_line hr hlines.1, readRest_of_readable hlines, if_pos hpost, hcontent]

end Read

/-- Fields are read as they were written.

Names and values of ASCII characters have a written form, by `redhttp_url_escape`.  Whatever the
form, the fields of a target come back as the arguments of the request, in their order and with
its path, and those that are sent as a form come behind them.  A body of any other type is left
alone. -/
theorem redhttpRequestRead_fields {heap : Heap} {w : RequestText}
    (serverSignature : Option CString) (serverAddr serverPort : CString)
    (hlines : w.LinesReadable heap) {path : CString} {asked : List Field} (hnamed : Named asked)
    (htarget : WrittenTarget path asked w.target.bytes) :
    (∀ fields : List Field, (∀ f ∈ fields, f.Ascii) →
      ∃ s, escapeForm fields = .ok s ∧ WrittenForm fields s) ∧
    (w.LeavesBody → ∃ r,
      redhttpRequestRead heap (redhttpRequestNew serverSignature serverAddr serverPort w.bytes) =
          .ok 0 r ∧
        r.path = some path ∧ r.arguments = asked.map Field.stored) ∧
    ∀ (form : CString) (fields : List Field), SendsForm heap w form → Named fields →
      WrittenForm fields form.bytes → ∃ r,
        redhttpRequestRead heap (redhttpRequestNew serverSignature serverAddr serverPort w.bytes) =
            .ok 0 r ∧
          r.path = some path ∧ r.arguments = (asked ++ fields).map Field.stored := by
  set new := redhttpRequestNew serverSignature serverAddr serverPort w.bytes
  have hr : FreshOn w new := ⟨rfl, rfl, rfl, rfl, rfl⟩
  obtain ⟨hpath, hasked⟩ := htarget.parts hnamed
  have harguments : (afterHeaders w new).arguments = asked.map Field.stored := by
    show new.arguments ++ _ = _
    rw [hr.arguments, List.nil_append, hasked]
  have hpathOf : (afterHeaders w new).path = some path := by
    show some (pathOf w.target) = _
    rw [hpath]
  refine ⟨fun fields => exists_escapeForm, fun hleaves => ?_,
    fun form fields hform hnamed' hwritten => ?_⟩
  · refine ⟨afterHeaders w new, ?_, hpathOf, harguments⟩
    rw [read_of_line hr hlines.1, readRest_of_readable hlines]
    have hheaders : (afterHeaders w new).headers = w.head.headers :=
      congrArg RequestHead.headers (head_afterHeaders hr)
    rcases hleaves with hpost | ⟨hlength, contentType, htype, hother⟩
    · rw [if_neg fun h => hpost (w.method_post h)]
    · rw [← hheaders] at hlength htype
      rw [readContent_of_other hlength htype hother, ite_self]
  · refine ⟨_, hform.read hlines hr, hpathOf, ?_⟩
    show (afterHeaders w new).arguments ++ sentArguments _ = _
    rw [harguments, sentArguments, (hwritten.segments hnamed').2, List.map_append]

/-- The header lines of a form of seven bytes. -/
def formLines : List HeaderLine := [{
    key := CString.lit "Content-Type"
    value := CString.lit "application/x-www-form-urlencoded"
    crlf := true
    key_ne := by decide
    key_text := forall_mem_of_all (by decide)
    value_start := ⟨ch 'a', bytesOf "pplication/x-www-form-urlencoded", by decide, by decide⟩
    value_text := forall_mem_of_all (by decide) }, {
    key := CString.lit "Content-Length"
    value := CString.lit "7"
    crlf := true
    key_ne := by decide
    key_text := forall_mem_of_all (by decide)
    value_start := ⟨ch '7', [], by decide, by decide⟩
    value_text := forall_mem_of_all (by decide) }]

/-- A field in the target of a request and two in its form. -/
def formRequest : RequestText where
  method := CString.lit "POST"
  target := CString.lit "/a%20b?n=1"
  version := CString.lit "1.0"
  crlf := false
  headers := formLines
  lastCrlf := true
  further := bytesOf "c+d;e=2"
  method_ne := by decide
  method_alpha := forall_mem_of_all (by decide)
  method_post := by decide
  target_start := ⟨ch '/', bytesOf "a%20b?n=1", by decide, by decide⟩
  target_end := ⟨bytesOf "/a%20b?n=", ch '1', by decide, by decide⟩
  target_text := forall_mem_of_all (by decide)
  target_keys := by decide
  version_word := forall_mem_of_all (by decide)
  version_new := by decide

lemma formLines_readable {heap : Heap} (h : heap.malloc bufsiz = true) :
    ∀ line ∈ formLines, Readable heap (bufferedText line.text line.crlf).length := by
  have hall : ∀ line ∈ formLines, (bufferedText line.text line.crlf).length < bufsiz := by decide
  exact fun line hline => ⟨h, room_of_lt (hall line hline)⟩

/-- The request is read with all three. -/
theorem redhttpRequestRead_fields_form : ∃ r,
    redhttpRequestRead ⟨fun _ => true, fun _ => 0⟩
        (redhttpRequestNew none default default formRequest.bytes) = .ok 0 r ∧
      r.path = some (CString.lit "/a b") ∧
      r.arguments = [⟨CString.lit "n", some (CString.lit "1")⟩, ⟨CString.lit "c d", none⟩,
        ⟨CString.lit "e", some (CString.lit "2")⟩] := by
  have htext : ∀ {s : CString} {t : List UInt8}, s.bytes = redhttpUrlUnescape t →
      t.all (fun c => !isSeparator c) = true → WrittenText s t := fun hs ht =>
    ⟨decoding_iff.mpr hs, by simpa using ht⟩
  have hasked : WrittenTarget (CString.lit "/a b") [(CString.lit "n", some (CString.lit "1"))]
      formRequest.target.bytes :=
    .asked (t := bytesOf "/a%20b") (s := bytesOf "n=1") (decoding_iff.mpr (by decide)) (by decide)
      (.last (.valued (k := bytesOf "n") (v := bytesOf "1") (htext (by decide) (by decide))
        (by decide) (htext (by decide) (by decide))))
  have hform : WrittenForm [(CString.lit "c d", none), (CString.lit "e", some (CString.lit "2"))]
      (CString.lit "c+d;e=2").bytes :=
    .cons (s := bytesOf "c+d") (t := bytesOf "e=2") (c := ch ';')
      (.bare (htext (by decide) (by decide)) (by decide)) (by decide)
      (.last (.valued (k := bytesOf "e") (v := bytesOf "2") (htext (by decide) (by decide))
        (by decide) (htext (by decide) (by decide))))
  refine (redhttpRequestRead_fields none default default
    ⟨⟨rfl, room_of_lt (by decide)⟩, formLines_readable rfl⟩ (by decide) hasked).2.2
    (CString.lit "c+d;e=2") _ ⟨?_, ?_, ?_, ?_, rfl, ?_⟩ (by decide) hform
  · decide
  · exact ⟨CString.lit "application/x-www-form-urlencoded", by decide, by decide⟩
  · exact ⟨CString.lit "7", by decide, by decide⟩
  · exact ⟨[], by decide⟩
  · decide

end RedStore.RedHttp
