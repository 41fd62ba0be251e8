/-
The grammar of request lines, and when `redhttp_request_read_status_line` keeps to it.

The parser steps over the byte behind the letters of the method, whatever it is.  White space
behind a method is what the grammar has there.  Any other byte is lost; and if it is the
terminator, the scan goes on in what the buffer holds behind the line.
-/
import RedStore.RedHttp.ReadBack

namespace RedStore.RedHttp
open CLib

/-! ### The grammar -/

def AllSpace (s : List UInt8) : Prop := ∀ c ∈ s, isspace c = true

/-- A text without white space at its ends. -/
structure Trimmed (s : List UInt8) : Prop where
  nonempty : s ≠ []
  head : ∀ c ∈ s.head?, isspace c = false
  last : ∀ c ∈ s.getLast?, isspace c = false

/-- A target and a version behind it. -/
structure VersionClause (body target version : List UInt8) : Prop where
  target_trimmed : Trimmed target
  version_word : ∀ c ∈ version, isspace c = false
  clause : ∃ gap scheme, body = target ++ gap ++ (scheme ++ version) ∧ gap ≠ [] ∧ AllSpace gap ∧
    (scheme = bytesOf "HTTP/" ∨ scheme = bytesOf "http/")

/-- How a request line is laid out. -/
structure LineLayout (text : List UInt8) (parts : StatusLine) where
  before : List UInt8
  gap : List UInt8
  body : List UInt8
  after : List UInt8
  text_eq : text = before ++ (parts.method.bytes ++ (gap ++ (body ++ after)))
  before_space : AllSpace before
  method_nonempty : parts.method.bytes ≠ []
  method_alpha : ∀ c ∈ parts.method.bytes, isalpha c = true
  gap_nonempty : gap ≠ []
  gap_space : AllSpace gap
  body_trimmed : Trimmed body
  after_space : AllSpace after
  /-- The version clause is taken whenever there is one. -/
  target : VersionClause body parts.pathAndQuery.bytes parts.version.bytes ∨
    (parts.pathAndQuery.bytes = body ∧ parts.version = CString.lit "0.9" ∧
      ∀ t v, ¬ VersionClause body t v)

/-- A line is a request line with these parts. -/
def StatusGrammar (text : List UInt8) (parts : StatusLine) : Prop :=
  Nonempty (LineLayout text parts)

/-! ### The parser on a line that has been read -/

/-- `redhttp_request_read_status_line`, behind its call of `redhttp_request_read_line`. -/
def takeStatusLine (line : List UInt8) : RequestM ℕ :=
  if (CString.ofBytes line).strlen = 0 then pure badRequest
  else
    match splitStatusLine line with
    | .error e => throw e
    | .ok none => pure badRequest
    | .ok (some parts) => do
      redhttpRequestSetMethod (some parts.method)
      redhttpRequestSetPathAndQuery (some parts.pathAndQuery)
      redhttpRequestSetVersion (some parts.version)
      pure 0

lemma redhttpRequestReadStatusLine_of_line {heap : Heap} {r r' : Request} {line : List UInt8}
    (h : redhttpRequestReadLine heap r = .ok (some line) r') :
    redhttpRequestReadStatusLine heap r = takeStatusLine line r' := by
  rw [redhttpRequestReadStatusLine, bind_of_ok h]
  rfl

/-- The letters of the method. -/
def methodOf (text : List UInt8) : List UInt8 := (text.dropWhile isspace).takeWhile isalpha

/-- What stands behind the letters of the method. -/
def afterMethod (text : List UInt8) : List UInt8 := (text.dropWhile isspace).dropWhile isalpha

section Text

variable {text rest : List UInt8} {c : UInt8} (htext : LineText text)

lemma methodOf_append_afterMethod (text : List UInt8) :
    methodOf text ++ afterMethod text = text.dropWhile isspace :=
  List.takeWhile_append_dropWhile

lemma mem_text_of_mem_afterMethod (h : c ∈ afterMethod text) : c ∈ text :=
  (List.dropWhile_sublist _).subset ((List.dropWhile_sublist _).subset h)

include htext

/-- The scan steps over the byte behind the method, and on in the line. -/
lemma splitStatusLine_of_byte (h : afterMethod text = c :: rest) (behind : List UInt8) :
    splitStatusLine (text ++ 0 :: behind) = .ok (if rest.dropWhile isspace = [] then none
      else some (splitTarget (methodOf text) (rest.dropWhile isspace))) := by
  have halpha : ¬ isalpha c = true := by
    have hhead := List.head?_dropWhile_not isalpha (text.dropWhile isspace)
    rw [← afterMethod, h, List.head?_cons] at hhead
    simpa using hhead
  have hmethod : ∀ d ∈ methodOf text, isalpha d = true := fun d hd => List.mem_takeWhile_imp hd
  have hstart : (text ++ 0 :: behind).dropWhile isspace =
      methodOf text ++ c :: (rest ++ 0 :: behind) := by
    rw [dropWhile_append_of_head (by simp), ← methodOf_append_afterMethod, h, List.append_assoc,
      List.cons_append]
  have htake : (methodOf text ++ c :: (rest ++ 0 :: behind)).takeWhile isalpha = methodOf text := by
    rw [List.takeWhile_append_of_pos hmethod, List.takeWhile_cons_of_neg halpha, List.append_nil]
  have hdrop : (methodOf text ++ c :: (rest ++ 0 :: behind)).dropWhile isalpha =
      c :: (rest ++ 0 :: behind) := by
    rw [List.dropWhile_append_of_pos hmethod, List.dropWhile_cons_of_neg halpha]
  have hrest : LineText rest := fun d hd =>
    htext d (mem_text_of_mem_afterMethod (h ▸ List.mem_cons_of_mem c hd))
  -- no line feed is left in the line
  have hskip : (rest ++ 0 :: behind).dropWhile (fun c => isspace c && c != ch '\n') =
      rest.dropWhile isspace ++ 0 :: behind := by
    rw [dropWhile_append_of_head (by simp)]
    congr 1
    clear h hstart htake hdrop
    induction rest with
    | nil => rfl
    | cons d rest ih =>
      have hd : (d != ch '\n') = true := by simpa using (hrest d (by simp)).2.2
      simp only [List.dropWhile_cons, hd, Bool.and_true, ih fun e he => hrest e (by simp [he])]
  rw [splitStatusLine]
  simp only [hstart, htake, hdrop, hskip]
  cases hbody : rest.dropWhile isspace with
  | nil => simp
  | cons d t =>
    have hbody' : LineText (d :: t) := fun e he =>
      hrest e ((List.dropWhile_sublist _).subset (hbody ▸ he))
    obtain ⟨hzero, -, hnl⟩ := hbody' d (by simp)
    have hbytes : (CString.ofBytes (d :: t ++ 0 :: behind)).bytes = d :: t :=
      CString.bytes_ofBytes_append_zero (fun hmem => (hbody' 0 hmem).1 rfl) behind
    rw [List.cons_append] at hbytes
    have hnul : ¬ (0 : UInt8) ∉ d :: (t ++ 0 :: behind) := by simp
    have hdn : ¬ (d = ch '\n' ∨ d = 0) := not_or.mpr ⟨hnl, hzero⟩
    simp only [List.cons_append, hdn, hnul, if_false, hbytes, reduceCtorEq]

omit htext in
/-- Behind a line of nothing but letters the scan leaves a buffer that is just large enough. -/
lemma splitStatusLine_of_end (h : afterMethod text = []) :
    splitStatusLine (text ++ [0]) = .error .outOfBounds := by
  have hdrop : ((text ++ [0]).dropWhile isspace).dropWhile isalpha = [0] := by
    rw [dropWhile_append_of_head (by simp), dropWhile_append_of_head (by simp), ← afterMethod, h,
      List.nil_append]
  rw [splitStatusLine, hdrop]
  rfl

end Text

/-! ### The target and the version -/

lemma Trimmed.rdropWhile_append {s after : List UInt8} (h : Trimmed s) (hafter : AllSpace after) :
    (s ++ after).rdropWhile isspace = s := by
  rw [RedHttp.rdropWhile_append hafter, List.rdropWhile_eq_self_iff]
  intro hne
  simpa using h.last _ (List.getLast?_eq_some_getLast hne)

lemma Trimmed.dropWhile_append {s : List UInt8} (h : Trimmed s) (more : List UInt8) :
    (s ++ more).dropWhile isspace = s ++ more := by
  obtain ⟨c, t, rfl⟩ := List.exists_cons_of_ne_nil h.nonempty
  have hc : ¬ isspace c = true := by simpa using h.head c rfl
  rw [List.cons_append, List.dropWhile_cons_of_neg hc]

/-- What starts with no white space is trimmed by cutting its end. -/
lemma trimmed_rdropWhile {s : List UInt8} (hne : s ≠ []) (hhead : ∀ c ∈ s.head?, isspace c = false) :
    Trimmed (s.rdropWhile isspace) := by
  have hnil : s.rdropWhile isspace ≠ [] := by
    rw [ne_eq, List.rdropWhile_eq_nil_iff]
    intro hall
    obtain ⟨c, t, rfl⟩ := List.exists_cons_of_ne_nil hne
    have hspace := hhead c rfl
    rw [hall c (by simp)] at hspace
    cases hspace
  refine ⟨hnil, fun c hc => hhead c ?_, fun c hc => ?_⟩
  · obtain ⟨more, hmore⟩ := List.rdropWhile_prefix isspace s
    rw [← hmore, List.head?_append_of_ne_nil _ hnil]
    exact hc
  · rw [List.getLast?_eq_some_getLast hnil, Option.mem_some_iff] at hc
    have hlast := List.rdropWhile_last_not isspace s hnil
    rw [hc] at hlast
    simpa using hlast

lemma isHttpWord_iff {word : List UInt8} : isHttpWord word = true ↔
    ∃ scheme version, word = scheme ++ version ∧
      (scheme = bytesOf "HTTP/" ∨ scheme = bytesOf "http/") := by
  simp only [isHttpWord, Bool.or_eq_true, List.isPrefixOf_iff_prefix]
  constructor
  · rintro (⟨version, h⟩ | ⟨version, h⟩)
    · exact ⟨_, version, h.symm, Or.inl rfl⟩
    · exact ⟨_, version, h.symm, Or.inr rfl⟩
  · rintro ⟨_, version, h, rfl | rfl⟩
    · exact Or.inl ⟨version, h.symm⟩
    · exact Or.inr ⟨version, h.symm⟩

/-- A version clause is found from the end. -/
lemma splitTarget_of_clause {body target version after : List UInt8} (hbody : Trimmed body)
    (h : VersionClause body target version) (hafter : AllSpace after) (method : List UInt8) :
    splitTarget method (body ++ after) =
      ⟨CString.ofBytes method, CString.ofBytes target, CString.ofBytes version⟩ := by
  obtain ⟨htarget, hversion, gap, scheme, hclause, hgap, hspace, hscheme⟩ := h
  obtain ⟨front, e, rfl⟩ := (List.eq_nil_or_concat' gap).resolve_left hgap
  have he : isspace e = true := hspace e (by simp)
  have hword : ∀ c ∈ scheme ++ version, (!isspace c) = true := by
    have hchars : ∀ c ∈ scheme, isspace c = false := by
      rcases hscheme with rfl | rfl
      · exact forall_mem_of_all (p := fun c => isspace c = false) (by decide)
      · exact forall_mem_of_all (p := fun c => isspace c = false) (by decide)
    intro c hc
    rcases List.mem_append.mp hc with hc | hc
    · simp [hchars c hc]
    · simp [hversion c hc]
  have hsplit : body = target ++ front ++ [e] ++ (scheme ++ version) := by simp [hclause]
  have hlast : body.rtakeWhile (fun c => !isspace c) = scheme ++ version := by
    rw [hsplit]
    exact rtakeWhile_append (by simp [he]) hword
  have hfront : body.rdropWhile (fun c => !isspace c) = target ++ (front ++ [e]) := by
    rw [hsplit, rdropWhile_append hword, List.rdropWhile_concat_neg _ _ _ (by simp [he])]
    simp
  have hpath : (target ++ (front ++ [e])).rdropWhile isspace = target :=
    htarget.rdropWhile_append hspace
  have hhttp : isHttpWord (scheme ++ version) = true :=
    isHttpWord_iff.mpr ⟨scheme, version, rfl, hscheme⟩
  have hdrop : (scheme ++ version).drop 5 = version := by
    rcases hscheme with rfl | rfl <;> rfl
  have hne : target ++ (front ++ [e]) ≠ [] := by simp
  simp only [splitTarget, hbody.rdropWhile_append hafter, hlast, hfront, hpath, hhttp, hdrop, hne,
    ne_eq, not_false_eq_true, and_self, if_true]

/-- Without a version clause none is found. -/
lemma splitTarget_of_plain {body after : List UInt8} (hbody : Trimmed body)
    (hno : ∀ t v, ¬ VersionClause body t v) (hafter : AllSpace after) (method : List UInt8) :
    splitTarget method (body ++ after) =
      ⟨CString.ofBytes method, CString.ofBytes body, CString.lit "0.9"⟩ := by
  simp only [splitTarget, hbody.rdropWhile_append hafter]
  rw [if_neg]
  rintro ⟨hne, hhttp⟩
  obtain ⟨scheme, version, hword, hscheme⟩ := isHttpWord_iff.mp hhttp
  set front := body.rdropWhile fun c => !isspace c with hfront
  have hsplit : front ++ (scheme ++ version) = body := by
    rw [← hword]
    exact List.rdropWhile_append_rtakeWhile
  have hhead : ∀ c ∈ front.head?, isspace c = false := by
    intro c hc
    refine hbody.head c ?_
    rw [← hsplit, List.head?_append_of_ne_nil _ hne]
    exact hc
  have hlast : isspace (front.getLast hne) = true := by
    simpa using List.rdropWhile_last_not (fun c => !isspace c) body hne
  have hgap : front.rtakeWhile isspace ≠ [] := by
    rw [ne_eq, List.rtakeWhile_eq_nil_iff]
    exact fun h => h hne hlast
  refine hno (front.rdropWhile isspace) version ⟨trimmed_rdropWhile hne hhead, ?_,
    front.rtakeWhile isspace, scheme, ?_, hgap, fun c hc => List.mem_rtakeWhile_imp hc, hscheme⟩
  · intro c hc
    have hin : c ∈ body.rtakeWhile fun c => !isspace c := by simp [hword, hc]
    simpa using List.mem_rtakeWhile_imp hin
  · rw [List.rdropWhile_append_rtakeWhile, hsplit]

/-! ### The grammar and the scan -/

section Layout

variable {text : List UInt8} {parts : StatusLine}

/-- A request line has white space behind its method, and something behind that. -/
lemma StatusGrammar.scan (h : StatusGrammar text parts) :
    ∃ c rest, afterMethod text = c :: rest ∧ isspace c = true ∧ methodOf text ≠ [] ∧
      rest.dropWhile isspace ≠ [] ∧
        splitTarget (methodOf text) (rest.dropWhile isspace) = parts := by
  obtain ⟨w⟩ := h
  obtain ⟨c, gap, hgap⟩ := List.exists_cons_of_ne_nil w.gap_nonempty
  have hspace := w.gap_space
  rw [hgap, AllSpace, List.forall_mem_cons] at hspace
  obtain ⟨m, method, hmethod⟩ := List.exists_cons_of_ne_nil w.method_nonempty
  have hm : ¬ isspace m = true := by
    simp [not_isspace_of_isalpha (w.method_alpha m (by simp [hmethod]))]
  have hc : ¬ isalpha c = true := fun halpha => by
    simp [not_isspace_of_isalpha halpha] at hspace
  have hstart : text.dropWhile isspace = parts.method.bytes ++ (w.gap ++ (w.body ++ w.after)) := by
    refine (congrArg (List.dropWhile isspace) w.text_eq).trans ?_
    rw [List.dropWhile_append_of_pos w.before_space, hmethod, List.cons_append,
      List.dropWhile_cons_of_neg hm]
  have hmethodOf : methodOf text = parts.method.bytes := by
    rw [methodOf, hstart, List.takeWhile_append_of_pos w.method_alpha, hgap, List.cons_append,
      List.takeWhile_cons_of_neg hc, List.append_nil]
  have hafter : afterMethod text = c :: (gap ++ (w.body ++ w.after)) := by
    rw [afterMethod, hstart, List.dropWhile_append_of_pos w.method_alpha, hgap, List.cons_append,
      List.dropWhile_cons_of_neg hc]
  have hbody : (gap ++ (w.body ++ w.after)).dropWhile isspace = w.body ++ w.after := by
    rw [List.dropWhile_append_of_pos hspace.2, w.body_trimmed.dropWhile_append]
  refine ⟨c, _, hafter, hspace.1, hmethodOf ▸ w.method_nonempty, ?_, ?_⟩
  · rw [hbody]
    simp [w.body_trimmed.nonempty]
  · rw [hbody, hmethodOf]
    rcases w.target with hclause | ⟨htarget, hversion, hno⟩
    · rw [splitTarget_of_clause w.body_trimmed hclause w.after_space]
      simp only [CString.ofBytes_bytes]
    · rw [splitTarget_of_plain w.body_trimmed hno w.after_space, ← htarget, ← hversion]
      simp only [CString.ofBytes_bytes]

/-- White space behind a method and something behind that make a request line. -/
lemma statusGrammar_of_scan (htext : LineText text) {c : UInt8} {rest : List UInt8}
    (h : afterMethod text = c :: rest) (hc : isspace c = true) (hmethod : methodOf text ≠ [])
    (hbody : rest.dropWhile isspace ≠ []) :
    StatusGrammar text (splitTarget (methodOf text) (rest.dropWhile isspace)) := by
  have hzero : ∀ {s : List UInt8}, s ⊆ text → (CString.ofBytes s).bytes = s := fun hs =>
    CString.bytes_ofBytes_of_not_mem fun hmem => (htext 0 (hs hmem)).1 rfl
  have hrest : rest ⊆ text := fun d hd =>
    mem_text_of_mem_afterMethod (h ▸ List.mem_cons_of_mem c hd)
  set body := (rest.dropWhile isspace).rdropWhile isspace with hbody_eq
  have htrimmed : Trimmed body := by
    refine trimmed_rdropWhile hbody fun d hd => ?_
    have hhead := List.head?_dropWhile_not isspace rest
    rw [Option.mem_def.mp hd] at hhead
    exact hhead
  have hafter : AllSpace ((rest.dropWhile isspace).rtakeWhile isspace) :=
    fun d hd => List.mem_rtakeWhile_imp hd
  have hsplit : body ++ (rest.dropWhile isspace).rtakeWhile isspace = rest.dropWhile isspace :=
    List.rdropWhile_append_rtakeWhile
  have hsub : body ⊆ text := fun d hd =>
    hrest ((List.dropWhile_sublist _).subset (hsplit ▸ List.mem_append_left _ hd))
  have hmethod_bytes : (CString.ofBytes (methodOf text)).bytes = methodOf text :=
    hzero fun d hd => (List.dropWhile_sublist _).subset ((List.takeWhile_sublist _).subset hd)
  have layout : ∀ parts : StatusLine, parts.method.bytes = methodOf text →
      (VersionClause body parts.pathAndQuery.bytes parts.version.bytes ∨
        (parts.pathAndQuery.bytes = body ∧ parts.version = CString.lit "0.9" ∧
          ∀ t v, ¬ VersionClause body t v)) → StatusGrammar text parts := by
    intro parts hparts htarget
    refine ⟨{
      before := text.takeWhile isspace
      gap := c :: rest.takeWhile isspace
      body
      after := (rest.dropWhile isspace).rtakeWhile isspace
      text_eq := ?_
      before_space := fun d hd => List.mem_takeWhile_imp hd
      method_nonempty := hparts ▸ hmethod
      method_alpha := fun d hd => List.mem_takeWhile_imp (hparts ▸ hd)
      gap_nonempty := List.cons_ne_nil _ _
      gap_space := List.forall_mem_cons.mpr ⟨hc, fun d hd => List.mem_takeWhile_imp hd⟩
      body_trimmed := htrimmed
      after_space := hafter
      target := htarget }⟩
    rw [hparts, hsplit, List.cons_append, List.takeWhile_append_dropWhile, ← h,
      methodOf_append_afterMethod, List.takeWhile_append_dropWhile]
  by_cases hclause : ∃ t v, VersionClause body t v
  · obtain ⟨t, v, hclause⟩ := hclause
    have hparts := splitTarget_of_clause htrimmed hclause hafter (methodOf text)
    rw [hsplit] at hparts
    obtain ⟨-, -, gap, scheme, hbody', -⟩ := id hclause
    have ht : (CString.ofBytes t).bytes = t := hzero fun d hd => hsub (by simp [hbody', hd])
    have hv : (CString.ofBytes v).bytes = v := hzero fun d hd => hsub (by simp [hbody', hd])
    rw [hparts]
    exact layout _ hmethod_bytes (Or.inl (by rwa [ht, hv]))
  · push Not at hclause
    have hparts := splitTarget_of_plain htrimmed hclause hafter (methodOf text)
    rw [hsplit] at hparts
    rw [hparts]
    exact layout _ hmethod_bytes (Or.inr ⟨hzero hsub, rfl, hclause⟩)

end Layout

/-! ### When the parser keeps to the grammar -/

/-- The line is taken as the grammar says, whatever the buffer holds behind it. -/
def KeepsToGrammar (text : List UInt8) : Prop :=
  ∀ (behind : List UInt8) (r : Request),
    (∀ parts, StatusGrammar text parts → takeStatusLine (text ++ 0 :: behind) r =
      .ok 0 (r.withStatusLine parts r.socket.input)) ∧
    ((∀ parts, ¬ StatusGrammar text parts) →
      takeStatusLine (text ++ 0 :: behind) r = .ok badRequest r)

/-- The byte that the scan steps over: only an empty line may end in front of it; and where
something follows it, it has to be white space behind a method. -/
def ByteBehindMethod (text : List UInt8) : Prop :=
  match afterMethod text with
  | [] => text = []
  | c :: rest => AllSpace rest ∨ methodOf text ≠ [] ∧ isspace c = true

section Take

variable {line : List UInt8} {parts : StatusLine} (hl : (CString.ofBytes line).strlen ≠ 0)
include hl

lemma takeStatusLine_of_error {e : Fault} (h : splitStatusLine line = .error e) (r : Request) :
    takeStatusLine line r = .error e r := by
  rw [takeStatusLine, if_neg hl, h]
  rfl

lemma takeStatusLine_of_none (h : splitStatusLine line = .ok none) (r : Request) :
    takeStatusLine line r = .ok badRequest r := by
  rw [takeStatusLine, if_neg hl, h]
  rfl

lemma takeStatusLine_of_keys (h : splitStatusLine line = .ok (some parts))
    (hkeys : KeysNonEmpty (queryBytes parts.pathAndQuery)) (r : Request) :
    takeStatusLine line r = .ok 0 (r.withStatusLine parts r.socket.input) := by
  simp only [takeStatusLine, hl, if_false, h, bind_apply, redhttpRequestSetMethod, modify_apply,
    setPathAndQuery_of_keys hkeys, redhttpRequestSetVersion, pure_apply]
  rfl

lemma takeStatusLine_of_not_keys (h : splitStatusLine line = .ok (some parts))
    (hkeys : ¬ KeysNonEmpty (queryBytes parts.pathAndQuery)) (r : Request) :
    ∃ r', takeStatusLine line r = .error .assertion r' := by
  obtain ⟨r', hr'⟩ := setPathAndQuery_of_not_keys hkeys
    { r with method := some (storedMethod parts.method) }
  refine ⟨r', ?_⟩
  simp only [takeStatusLine, hl, if_false, h, bind_apply, redhttpRequestSetMethod, modify_apply,
    Option.map_some, hr']

end Take

section Kinds

variable {text : List UInt8} (htext : LineText text) {c : UInt8} {rest : List UInt8}

lemma StatusGrammar.of_cons {parts : StatusLine} (h : StatusGrammar text parts)
    (hafter : afterMethod text = c :: rest) : isspace c = true ∧ methodOf text ≠ [] ∧
      rest.dropWhile isspace ≠ [] ∧
        splitTarget (methodOf text) (rest.dropWhile isspace) = parts := by
  obtain ⟨c', rest', hafter', hscan⟩ := h.scan
  obtain ⟨rfl, rfl⟩ := List.cons.inj (hafter.symm.trans hafter')
  exact hscan

lemma StatusGrammar.afterMethod_ne_nil {parts : StatusLine} (h : StatusGrammar text parts) :
    afterMethod text ≠ [] := by
  obtain ⟨c, rest, hafter, -⟩ := h.scan
  rw [hafter]
  exact List.cons_ne_nil _ _

include htext

lemma strlen_line (hne : text ≠ []) (behind : List UInt8) :
    (CString.ofBytes (text ++ 0 :: behind)).strlen ≠ 0 := by
  rw [CString.strlen, ofBytes_line htext]
  simpa using hne

/-- A line of nothing but letters is not taken for what it is. -/
lemma not_keepsToGrammar_of_end (hne : text ≠ []) (hafter : afterMethod text = []) :
    ¬ KeepsToGrammar text := by
  intro h
  have hrun := (h [] {}).2 fun parts hparts => hparts.afterMethod_ne_nil hafter
  rw [takeStatusLine_of_error (strlen_line htext hne []) (splitStatusLine_of_end hafter)] at hrun
  cases hrun

/-- A line without a target is refused. -/
lemma keepsToGrammar_of_space (hne : text ≠ []) (hafter : afterMethod text = c :: rest)
    (hbody : rest.dropWhile isspace = []) : KeepsToGrammar text := by
  refine fun behind r => ⟨fun parts h => absurd hbody (h.of_cons hafter).2.2.1, fun _ => ?_⟩
  refine takeStatusLine_of_none (strlen_line htext hne behind) ?_ r
  rw [splitStatusLine_of_byte htext hafter, if_pos hbody]

/-- A line with a target is taken apart, whatever the byte in front of it. -/
lemma splitStatusLine_of_body (hafter : afterMethod text = c :: rest)
    (hbody : rest.dropWhile isspace ≠ []) (behind : List UInt8) :
    splitStatusLine (text ++ 0 :: behind) =
      .ok (some (splitTarget (methodOf text) (rest.dropWhile isspace))) := by
  rw [splitStatusLine_of_byte htext hafter, if_neg hbody]

/-- If that byte is lost the line should have been refused. -/
lemma not_keepsToGrammar_of_byte (hne : text ≠ []) (hafter : afterMethod text = c :: rest)
    (hbody : rest.dropWhile isspace ≠ []) (hbyte : ¬ (methodOf text ≠ [] ∧ isspace c = true)) :
    ¬ KeepsToGrammar text := by
  intro h
  have hrun := (h [] {}).2 fun parts hparts =>
    hbyte ⟨(hparts.of_cons hafter).2.1, (hparts.of_cons hafter).1⟩
  have hsplit := splitStatusLine_of_body htext hafter hbody []
  have hl := strlen_line htext hne []
  by_cases hkeys : KeysNonEmpty (queryBytes
      (splitTarget (methodOf text) (rest.dropWhile isspace)).pathAndQuery)
  · rw [takeStatusLine_of_keys hl hsplit hkeys] at hrun
    cases hrun
  · obtain ⟨r', hrun'⟩ := takeStatusLine_of_not_keys hl hsplit hkeys {}
    rw [hrun'] at hrun
    cases hrun

/-- A line that is in the grammar is taken as it says if the arguments can be stored. -/
lemma keepsToGrammar_iff_keys (hne : text ≠ []) (hafter : afterMethod text = c :: rest)
    (hbody : rest.dropWhile isspace ≠ []) (hmethod : methodOf text ≠ [])
    (hc : isspace c = true) : KeepsToGrammar text ↔
      ∀ parts, StatusGrammar text parts → KeysNonEmpty (queryBytes parts.pathAndQuery) := by
  have hsplit := splitStatusLine_of_body htext hafter hbody
  have hl := strlen_line htext hne
  constructor
  · intro h parts hparts
    by_contra hkeys
    obtain rfl := (hparts.of_cons hafter).2.2.2
    obtain ⟨r', hrun⟩ := takeStatusLine_of_not_keys (hl []) (hsplit []) hkeys {}
    rw [(h [] {}).1 _ hparts] at hrun
    cases hrun
  · intro hkeys behind r
    refine ⟨fun parts hparts => ?_, fun hno => ?_⟩
    · obtain rfl := (hparts.of_cons hafter).2.2.2
      exact takeStatusLine_of_keys (hl behind) (hsplit behind) (hkeys _ hparts) r
    · exact absurd (statusGrammar_of_scan htext hafter hc hmethod hbody) (hno _)

end Kinds

/-- The parser keeps to the grammar exactly on the lines where the byte behind the method is
what it is taken for, and where no key of the target's query string is empty. -/
theorem redhttpRequestReadStatusLine_grammar_iff (text : List UInt8) (htext : LineText text) :
    KeepsToGrammar text ↔ ByteBehindMethod text ∧
      ∀ parts, StatusGrammar text parts → KeysNonEmpty (queryBytes parts.pathAndQuery) := by
  cases hafter : afterMethod text with
  | nil =>
    have hno : ∀ parts, ¬ StatusGrammar text parts := fun parts h => h.afterMethod_ne_nil hafter
    rw [ByteBehindMethod, hafter]
    by_cases hne : text = []
    · subst hne
      refine iff_of_true (fun behind r => ⟨fun parts h => absurd h (hno parts), fun _ => rfl⟩)
        ⟨rfl, fun parts h => absurd h (hno parts)⟩
    · exact iff_of_false (not_keepsToGrammar_of_end htext hne hafter) fun h => hne h.1
  | cons c rest =>
    have hne : text ≠ [] := by
      rintro rfl
      cases hafter
    rw [ByteBehindMethod, hafter]
    by_cases hbody : rest.dropWhile isspace = []
    · exact iff_of_true (keepsToGrammar_of_space htext hne hafter hbody)
        ⟨Or.inl (List.dropWhile_eq_nil_iff.mp hbody),
          fun parts h => absurd hbody (h.of_cons hafter).2.2.1⟩
    · have hspace : ¬ AllSpace rest := fun h => hbody (List.dropWhile_eq_nil_iff.mpr h)
      by_cases hbyte : methodOf text ≠ [] ∧ isspace c = true
      · rw [keepsToGrammar_iff_keys htext hne hafter hbody hbyte.1 hbyte.2]
        exact ⟨fun h => ⟨Or.inr hbyte, h⟩, fun h => h.2⟩
      · exact iff_of_false (not_keepsToGrammar_of_byte htext hne hafter hbody hbyte)
          fun h => h.1.elim hspace hbyte

/-- A line with a version is in the grammar. -/
theorem redhttpRequestReadStatusLine_grammar_foaf :
    LineText (bytesOf "GET /foaf.rdf HTTP/1.0") ∧
      KeepsToGrammar (bytesOf "GET /foaf.rdf HTTP/1.0") := by
  have htext : LineText (bytesOf "GET /foaf.rdf HTTP/1.0") := forall_mem_of_all (by decide)
  have hafter : afterMethod (bytesOf "GET /foaf.rdf HTTP/1.0") =
      ch ' ' :: bytesOf "/foaf.rdf HTTP/1.0" := by decide
  have hbyte : ByteBehindMethod (bytesOf "GET /foaf.rdf HTTP/1.0") := by
    rw [ByteBehindMethod, hafter]
    exact Or.inr ⟨by decide, by decide⟩
  refine ⟨htext, (redhttpRequestReadStatusLine_grammar_iff _ htext).mpr ⟨hbyte, ?_⟩⟩
  intro parts hparts
  obtain ⟨-, -, -, rfl⟩ := hparts.of_cons hafter
  decide

/-- The byte between a method and a target that follows it at once is dropped, and the line
accepted. -/
theorem status_line_byte_dropped :
    (∀ parts, ¬ StatusGrammar (bytesOf "GET/foo HTTP/1.0") parts) ∧
      ¬ KeepsToGrammar (bytesOf "GET/foo HTTP/1.0") ∧
      ∃ (heap : Heap) (r r' : Request), r.socket.input = bytesOf "GET/foo HTTP/1.0\r\n" ∧
        redhttpRequestReadStatusLine heap r = .ok 0 r' ∧
        r'.pathAndQuery = some (CString.lit "foo") := by
  have htext : LineText (bytesOf "GET/foo HTTP/1.0") := forall_mem_of_all (by decide)
  have hafter : afterMethod (bytesOf "GET/foo HTTP/1.0") = ch '/' :: bytesOf "foo HTTP/1.0" := by
    decide
  have hno : ∀ parts, ¬ StatusGrammar (bytesOf "GET/foo HTTP/1.0") parts := by
    intro parts h
    exact absurd (h.of_cons hafter).1 (by decide)
  refine ⟨hno, not_keepsToGrammar_of_byte htext (by decide) hafter (by decide) (by decide), ?_⟩
  let r : Request := { socket := { input := bytesOf "GET/foo HTTP/1.0\r\n" } }
  have hreadable : Readable ⟨fun _ => true, fun _ => 0⟩
      (bufferedText (bytesOf "GET/foo HTTP/1.0") true).length :=
    readable_of_lt ⟨rfl, room_of_lt (n := 0) (by decide)⟩ (by decide)
  obtain ⟨behind, hline⟩ := readLineFrom_of_readable htext true [] hreadable
  have hsplit : splitStatusLine (bytesOf "GET/foo HTTP/1.0" ++ 0 :: behind) =
      .ok (some ⟨CString.lit "GET", CString.lit "foo", CString.lit "1.0"⟩) := by
    rw [splitStatusLine_of_body htext hafter (by decide)]
    congr 1
  have hread : redhttpRequestReadLine ⟨fun _ => true, fun _ => 0⟩ r =
      .ok (some (bytesOf "GET/foo HTTP/1.0" ++ 0 :: behind)) (r.withInput []) := by
    have hinput : r.socket.input = bytesOf "GET/foo HTTP/1.0" ++ eol true ++ [] := by decide
    rw [redhttpRequestReadLine, hinput, hline]
  have hrun := takeStatusLine_of_keys (strlen_line htext (by decide) behind) hsplit (by decide)
    (r.withInput [])
  rw [← redhttpRequestReadStatusLine_of_line hread] at hrun
  exact ⟨⟨fun _ => true, fun _ => 0⟩, r, _, rfl, hrun, rfl⟩

end RedStore.RedHttp
