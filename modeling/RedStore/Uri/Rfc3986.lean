/-
URI references and their resolution, as RFC 3986 defines them.

A reference is taken apart by its delimiters (section 3), resolved against a base
(section 5.2) and put together again (section 5.3).  Everything is on bytes, and no
character is ruled out; the rules only look at the delimiters.
-/
import RedStore.CLib.CString

namespace Rfc3986
open CLib

/-- The parts of a reference. -/
structure Reference where
  scheme : Option (List UInt8) := none
  authority : Option (List UInt8) := none
  path : List UInt8 := []
  query : Option (List UInt8) := none
  fragment : Option (List UInt8) := none
deriving DecidableEq

/-! ### Taking apart -/

/-- What stands in front of a delimiter. -/
def upTo (delimiter : UInt8) (s : List UInt8) : List UInt8 := s.takeWhile (· != delimiter)

/-- What stands behind a delimiter, if it occurs. -/
def behind (delimiter : UInt8) (s : List UInt8) : Option (List UInt8) :=
  match s.dropWhile (· != delimiter) with
  | [] => none
  | _ :: rest => some rest

/-- `ALPHA *( ALPHA / DIGIT / "+" / "-" / "." )`. -/
def isScheme : List UInt8 → Bool
  | [] => false
  | c :: s => isalpha c && s.all fun c => isalpha c || isdigit c || c ∈ bytesOf "+-."

/-- The scheme in front of a hierarchical part. -/
def schemeOf (s : List UInt8) : Option (List UInt8) :=
  if (behind (ch ':') s).isSome && isScheme (upTo (ch ':') s) then some (upTo (ch ':') s) else none

/-- The hierarchical part without its scheme. -/
def withoutScheme (s : List UInt8) : List UInt8 :=
  if (schemeOf s).isSome then (behind (ch ':') s).getD [] else s

/-- The authority in front of a path. -/
def authorityOf (s : List UInt8) : Option (List UInt8) :=
  match s with
  | a :: b :: rest => if a = ch '/' ∧ b = ch '/' then some (upTo (ch '/') rest) else none
  | _ => none

/-- The path behind an authority. -/
def pathOf (s : List UInt8) : List UInt8 :=
  match s with
  | a :: b :: rest =>
    if a = ch '/' ∧ b = ch '/' then rest.dropWhile (· != ch '/') else s
  | _ => s

/-- The part of a reference in front of its query and its fragment. -/
def hierarchical (s : List UInt8) : List UInt8 := upTo (ch '?') (upTo (ch '#') s)

/-- A reference by its parts. -/
def parse (s : List UInt8) : Reference where
  scheme := schemeOf (hierarchical s)
  authority := authorityOf (withoutScheme (hierarchical s))
  path := pathOf (withoutScheme (hierarchical s))
  query := behind (ch '?') (upTo (ch '#') s)
  fragment := behind (ch '#') s

/-! ### Putting together -/

/-- A part with its delimiter in front. -/
def prefixed (delimiter : List UInt8) (part : Option (List UInt8)) : List UInt8 :=
  part.elim [] (delimiter ++ ·)

/-- Section 5.3. -/
def recompose (r : Reference) : List UInt8 :=
  r.scheme.elim [] (· ++ bytesOf ":") ++ prefixed (bytesOf "//") r.authority ++ r.path ++
    prefixed (bytesOf "?") r.query ++ prefixed (bytesOf "#") r.fragment

/-! ### Dot segments -/

/-- The output without its last segment and the slash in front of it. -/
def dropSegment (output : List UInt8) : List UInt8 :=
  (output.rdropWhile (· != ch '/')).dropLast

/-- The input behind a prefix. -/
def afterPrefix (pre : String) (s : List UInt8) : Option (List UInt8) :=
  if (bytesOf pre).isPrefixOf s then some (s.drop (bytesOf pre).length) else none

/-- The first path segment of the input, with the slash in front of it if there is one. -/
def firstSegment : List UInt8 → List UInt8
  | [] => []
  | c :: s => c :: upTo (ch '/') s

/-- One step of section 5.2.4: what becomes of the input and the output. -/
def dotStep (input output : List UInt8) : List UInt8 × List UInt8 :=
  match afterPrefix "../" input, afterPrefix "./" input, afterPrefix "/./" input,
    afterPrefix "/../" input with
  | some rest, _, _, _ => (rest, output)
  | none, some rest, _, _ => (rest, output)
  | none, none, some rest, _ => (ch '/' :: rest, output)
  | none, none, none, some rest => (ch '/' :: rest, dropSegment output)
  | none, none, none, none =>
    if input = bytesOf "/." then (bytesOf "/", output)
    else if input = bytesOf "/.." then (bytesOf "/", dropSegment output)
    else if input = bytesOf "." ∨ input = bytesOf ".." then ([], output)
    else (input.drop (firstSegment input).length, output ++ firstSegment input)

/-- Section 5.2.4; every step takes something off the input. -/
def removeDotsFrom : ℕ → List UInt8 → List UInt8 → List UInt8
  | 0, _, output => output
  | n + 1, input, output =>
    if input = [] then output
    else removeDotsFrom n (dotStep input output).1 (dotStep input output).2

def removeDotSegments (path : List UInt8) : List UInt8 := removeDotsFrom path.length path []

/-! ### Resolution -/

/-- Section 5.2.3. -/
def mergePaths (base : Reference) (path : List UInt8) : List UInt8 :=
  if base.authority.isSome ∧ base.path = [] then ch '/' :: path
  else base.path.rdropWhile (· != ch '/') ++ path

/-- Section 5.2.2. -/
def transform (base ref : Reference) : Reference :=
  if ref.scheme.isSome then { ref with path := removeDotSegments ref.path }
  else if ref.authority.isSome then
    { ref with scheme := base.scheme, path := removeDotSegments ref.path }
  else if ref.path = [] then
    { ref with
      scheme := base.scheme
      authority := base.authority
      path := base.path
      query := ref.query.or base.query }
  else if ref.path.head? = some (ch '/') then
    { ref with
      scheme := base.scheme
      authority := base.authority
      path := removeDotSegments ref.path }
  else
    { ref with
      scheme := base.scheme
      authority := base.authority
      path := removeDotSegments (mergePaths base ref.path) }

/-- A reference resolved against a base. -/
def resolve (base ref : List UInt8) : List UInt8 :=
  recompose (transform (parse base) (parse ref))

example : resolve (bytesOf "http://a/b/c/d;p?q") (bytesOf "../g?y#s") =
    bytesOf "http://a/b/g?y#s" := by decide

/-! ### Delimiters -/

section Delimiters

variable {d : UInt8} {s : List UInt8}

lemma upTo_eq_self (h : d ∉ s) : upTo d s = s := takeWhile_bne_eq_self_iff.mpr h

lemma upTo_append (h : d ∉ s) (t : List UInt8) : upTo d (s ++ t) = s ++ upTo d t :=
  takeWhile_bne_append h t

@[simp] lemma upTo_cons_self (d : UInt8) (t : List UInt8) : upTo d (d :: t) = [] := by
  simp [upTo]

lemma behind_append (h : d ∉ s) (t : List UInt8) : behind d (s ++ t) = behind d t := by
  rw [behind, behind, dropWhile_bne_append h]

@[simp] lemma behind_cons_self (d : UInt8) (t : List UInt8) : behind d (d :: t) = some t := by
  simp [behind]

end Delimiters

/-! ### What of the base matters -/

/-- A reference that is resolved against the query of the base as well: it has nothing but,
perhaps, a fragment. -/
def Reference.SameDocument (ref : Reference) : Prop :=
  ref.scheme = none ∧ ref.authority = none ∧ ref.path = [] ∧ ref.query = none

instance (ref : Reference) : Decidable ref.SameDocument :=
  inferInstanceAs (Decidable (_ ∧ _))

/-- Unless the reference is to the same document, the query of the base does not matter; its
fragment never does. -/
theorem transform_congr {base base' ref : Reference} (hscheme : base.scheme = base'.scheme)
    (hauthority : base.authority = base'.authority) (hpath : base.path = base'.path)
    (hquery : ref.SameDocument → base.query = base'.query) :
    transform base ref = transform base' ref := by
  have hmerge : mergePaths base ref.path = mergePaths base' ref.path := by
    rw [mergePaths, mergePaths, hauthority, hpath]
  rw [transform, transform, hscheme, hauthority, hpath, hmerge]
  by_cases hs : ref.scheme.isSome = true
  · rw [if_pos hs, if_pos hs]
  by_cases ha : ref.authority.isSome = true
  · rw [if_neg hs, if_neg hs, if_pos ha, if_pos ha]
  by_cases hp : ref.path = []
  · have hor : ref.query.or base.query = ref.query.or base'.query := by
      cases hq : ref.query with
      | some q => rfl
      | none =>
        exact hquery ⟨by simpa using hs, by simpa using ha, hp, hq⟩
    rw [hor]
  · simp only [hs, ha, hp, if_false]

/-- A reference to the same document is the base with another fragment. -/
lemma transform_of_sameDocument {base ref : Reference} (h : ref.SameDocument) :
    transform base ref = { base with fragment := ref.fragment } := by
  obtain ⟨hscheme, hauthority, hpath, hquery⟩ := h
  simp [transform, hscheme, hauthority, hpath, hquery]

lemma prefixed_inj {c : UInt8} {part part' : Option (List UInt8)}
    (h : prefixed [c] part = prefixed [c] part') : part = part' := by
  cases part <;> cases part' <;> simp_all [prefixed]

/-- With two bases that differ in their queries alone, a reference comes to the same exactly if
it does not look at them. -/
theorem recompose_transform_eq_iff {base base' : Reference} (ref : Reference)
    (hscheme : base.scheme = base'.scheme) (hauthority : base.authority = base'.authority)
    (hpath : base.path = base'.path) :
    recompose (transform base ref) = recompose (transform base' ref) ↔
      (ref.SameDocument → base.query = base'.query) := by
  constructor
  · intro h hsame
    rw [transform_of_sameDocument hsame, transform_of_sameDocument hsame, recompose, recompose,
      hscheme, hauthority, hpath] at h
    exact prefixed_inj (c := ch '?') (List.append_cancel_left (List.append_cancel_right h))
  · intro h
    rw [transform_congr hscheme hauthority hpath h]

/-- A query behind a reference does not change what is in front of it. -/
theorem hierarchical_append_query (s : List UInt8) {t : List UInt8}
    (ht : ∀ c rest, t = c :: rest → c = ch '?') : hierarchical (s ++ t) = hierarchical s := by
  rw [hierarchical, hierarchical]
  by_cases hs : ch '#' ∈ s
  · -- the fragment begins in front of the query
    have hcut : upTo (ch '#') (s ++ t) = upTo (ch '#') s := by
      rw [upTo, upTo, List.takeWhile_append, if_neg]
      intro hlen
      have hall := List.takeWhile_eq_self_iff.mp
        ((List.takeWhile_prefix _).eq_of_length hlen) _ hs
      simp at hall
    rw [hcut]
  · rw [upTo_append hs, upTo_eq_self hs]
    refine takeWhile_append_of_head (fun c hc => ?_) s
    cases t with
    | nil => cases hc
    | cons d rest =>
      obtain rfl := ht d rest rfl
      have hd : upTo (ch '#') (ch '?' :: rest) = ch '?' :: upTo (ch '#') rest := by
        simp [upTo, show (ch '?' != ch '#') = true by decide]
      rw [hd, List.head?_cons, Option.mem_some_iff] at hc
      rw [← hc, bne_self_eq_false]

/-! ### Which bytes come out -/

/-- A property of all bytes of a reference. -/
structure Reference.All (p : UInt8 → Prop) (r : Reference) : Prop where
  scheme : ∀ s ∈ r.scheme, ∀ c ∈ s, p c
  authority : ∀ s ∈ r.authority, ∀ c ∈ s, p c
  path : ∀ c ∈ r.path, p c
  query : ∀ s ∈ r.query, ∀ c ∈ s, p c
  fragment : ∀ s ∈ r.fragment, ∀ c ∈ s, p c

section All

variable {p : UInt8 → Prop} {s : List UInt8}

lemma mem_of_mem_upTo {d c : UInt8} (h : c ∈ upTo d s) : c ∈ s :=
  (List.takeWhile_prefix _).subset h

lemma mem_of_mem_behind {d c : UInt8} {t : List UInt8} (ht : behind d s = some t) (h : c ∈ t) :
    c ∈ s := by
  rw [behind] at ht
  cases hdrop : s.dropWhile (· != d) with
  | nil => simp [hdrop] at ht
  | cons a rest =>
    simp only [hdrop, Option.some.injEq] at ht
    refine (List.dropWhile_suffix (· != d)).subset ?_
    rw [hdrop, ht]
    exact List.mem_cons_of_mem _ h

lemma mem_of_mem_hierarchical {c : UInt8} (h : c ∈ hierarchical s) : c ∈ s :=
  mem_of_mem_upTo (mem_of_mem_upTo h)

lemma mem_of_mem_schemeOf {c : UInt8} {t : List UInt8} (ht : schemeOf s = some t) (h : c ∈ t) :
    c ∈ s := by
  rw [schemeOf] at ht
  split at ht
  · obtain rfl := Option.some.inj ht
    exact mem_of_mem_upTo h
  · cases ht

lemma mem_of_mem_withoutScheme {c : UInt8} (h : c ∈ withoutScheme s) : c ∈ s := by
  rw [withoutScheme] at h
  split at h
  · cases hbehind : behind (ch ':') s with
    | none => simp [hbehind] at h
    | some t =>
      rw [hbehind] at h
      exact mem_of_mem_behind hbehind h
  · exact h

lemma mem_of_mem_authorityOf {c : UInt8} {t : List UInt8} (ht : authorityOf s = some t)
    (h : c ∈ t) : c ∈ s := by
  match s with
  | [] => simp [authorityOf] at ht
  | [a] => simp [authorityOf] at ht
  | a :: b :: rest =>
    simp only [authorityOf] at ht
    split at ht
    · obtain rfl := Option.some.inj ht
      exact List.mem_cons_of_mem _ (List.mem_cons_of_mem _ (mem_of_mem_upTo h))
    · cases ht

lemma mem_of_mem_pathOf {c : UInt8} (h : c ∈ pathOf s) : c ∈ s := by
  match s with
  | [] => exact h
  | [a] => exact h
  | a :: b :: rest =>
    simp only [pathOf] at h
    split at h
    · exact List.mem_cons_of_mem _ (List.mem_cons_of_mem _
        ((List.dropWhile_suffix _).subset h))
    · exact h

/-- The parts of a reference have only bytes of it. -/
lemma all_parse (h : ∀ c ∈ s, p c) : (parse s).All p where
  scheme _ ht _ hc := h _ (mem_of_mem_hierarchical (mem_of_mem_schemeOf ht hc))
  authority _ ht _ hc :=
    h _ (mem_of_mem_hierarchical (mem_of_mem_withoutScheme (mem_of_mem_authorityOf ht hc)))
  path _ hc := h _ (mem_of_mem_hierarchical (mem_of_mem_withoutScheme (mem_of_mem_pathOf hc)))
  query _ ht _ hc := h _ (mem_of_mem_upTo (mem_of_mem_behind ht hc))
  fragment _ ht _ hc := h _ (mem_of_mem_behind ht hc)

lemma all_prefixed {delimiter : List UInt8} {part : Option (List UInt8)}
    (hd : ∀ c ∈ delimiter, p c) (h : ∀ s ∈ part, ∀ c ∈ s, p c) :
    ∀ c ∈ prefixed delimiter part, p c := by
  cases part with
  | none => simp [prefixed]
  | some t =>
    simp only [prefixed, Option.elim_some, List.mem_append]
    rintro c (hc | hc)
    · exact hd c hc
    · exact h t rfl c hc

/-- What is put together has the bytes of the parts and the delimiters. -/
lemma all_recompose {r : Reference} (h : r.All p) (hd : ∀ c ∈ bytesOf ":/?#", p c) :
    ∀ c ∈ recompose r, p c := by
  have hdelimiter : ∀ str : String, bytesOf str ⊆ bytesOf ":/?#" → ∀ c ∈ bytesOf str, p c :=
    fun str hsub c hc => hd c (hsub hc)
  have hscheme : ∀ c ∈ r.scheme.elim [] (· ++ bytesOf ":"), p c := by
    cases hs : r.scheme with
    | none => simp
    | some t =>
      simp only [Option.elim_some, List.mem_append]
      rintro c (hc | hc)
      · exact h.scheme t hs c hc
      · exact hdelimiter ":" (by decide) c hc
  intro c hc
  simp only [recompose, List.mem_append] at hc
  rcases hc with (((hc | hc) | hc) | hc) | hc
  · exact hscheme c hc
  · exact all_prefixed (hdelimiter "//" (by decide)) h.authority c hc
  · exact h.path c hc
  · exact all_prefixed (hdelimiter "?" (by decide)) h.query c hc
  · exact all_prefixed (hdelimiter "#" (by decide)) h.fragment c hc

lemma mem_of_mem_dropSegment {output : List UInt8} {c : UInt8} (h : c ∈ dropSegment output) :
    c ∈ output :=
  (List.rdropWhile_prefix _ _).subset (List.dropLast_subset _ h)

lemma mem_of_mem_afterPrefix {pre : String} {rest : List UInt8} {c : UInt8}
    (hrest : afterPrefix pre s = some rest) (h : c ∈ rest) : c ∈ s := by
  rw [afterPrefix] at hrest
  split at hrest
  · obtain rfl := Option.some.inj hrest
    exact List.mem_of_mem_drop h
  · cases hrest

lemma mem_of_mem_firstSegment {c : UInt8} (h : c ∈ firstSegment s) : c ∈ s := by
  cases s with
  | nil => exact h
  | cons a s =>
    rcases List.mem_cons.mp h with rfl | h
    · exact List.mem_cons_self
    · exact List.mem_cons_of_mem _ (mem_of_mem_upTo h)

lemma all_dotStep {input output : List UInt8} (hslash : p (ch '/')) (hi : ∀ c ∈ input, p c)
    (ho : ∀ c ∈ output, p c) :
    (∀ c ∈ (dotStep input output).1, p c) ∧ ∀ c ∈ (dotStep input output).2, p c := by
  have hdrop : ∀ c ∈ dropSegment output, p c := fun c hc => ho c (mem_of_mem_dropSegment hc)
  have hrest : ∀ {pre rest}, afterPrefix pre input = some rest → ∀ c ∈ rest, p c :=
    fun hrest c hc => hi c (mem_of_mem_afterPrefix hrest hc)
  have hcons : ∀ {rest : List UInt8}, (∀ c ∈ rest, p c) → ∀ c ∈ ch '/' :: rest, p c := by
    intro rest h
    rw [List.forall_mem_cons]
    exact ⟨hslash, h⟩
  rw [dotStep]
  split
  · next h => exact ⟨hrest h, ho⟩
  · next h => exact ⟨hrest h, ho⟩
  · next h => exact ⟨hcons (hrest h), ho⟩
  · next h => exact ⟨hcons (hrest h), hdrop⟩
  · have hroot : ∀ c ∈ bytesOf "/", p c := by
      intro c hc
      rw [List.mem_singleton.mp hc]
      exact hslash
    split
    · exact ⟨hroot, ho⟩
    split
    · exact ⟨hroot, hdrop⟩
    split
    · exact ⟨by simp, ho⟩
    · refine ⟨fun c hc => hi c (List.mem_of_mem_drop hc), fun c hc => ?_⟩
      rcases List.mem_append.mp hc with hc | hc
      · exact ho c hc
      · exact hi c (mem_of_mem_firstSegment hc)

lemma all_removeDotsFrom {n : ℕ} {input output : List UInt8} (hslash : p (ch '/'))
    (hi : ∀ c ∈ input, p c) (ho : ∀ c ∈ output, p c) :
    ∀ c ∈ removeDotsFrom n input output, p c := by
  induction n generalizing input output with
  | zero => exact ho
  | succ n ih =>
    rw [removeDotsFrom]
    split
    · exact ho
    · obtain ⟨hi', ho'⟩ := all_dotStep hslash hi ho
      exact ih hi' ho'

lemma all_mergePaths {base : Reference} {path : List UInt8} (hslash : p (ch '/'))
    (hbase : base.All p) (hpath : ∀ c ∈ path, p c) : ∀ c ∈ mergePaths base path, p c := by
  rw [mergePaths]
  split
  · rw [List.forall_mem_cons]
    exact ⟨hslash, hpath⟩
  · intro c hc
    rcases List.mem_append.mp hc with hc | hc
    · exact hbase.path c ((List.rdropWhile_prefix _ _).subset hc)
    · exact hpath c hc

lemma all_transform {base ref : Reference} (hslash : p (ch '/')) (hbase : base.All p)
    (href : ref.All p) : (transform base ref).All p := by
  have hdots : ∀ {path : List UInt8}, (∀ c ∈ path, p c) → ∀ c ∈ removeDotSegments path, p c :=
    fun h => all_removeDotsFrom hslash h (by simp)
  rw [transform]
  split
  · exact { href with path := hdots href.path }
  split
  · exact { href with scheme := hbase.scheme, path := hdots href.path }
  split
  · refine ⟨hbase.scheme, hbase.authority, hbase.path, fun s hs => ?_, href.fragment⟩
    rcases Option.or_eq_some_iff.mp hs with hs | ⟨-, hs⟩
    · exact href.query s hs
    · exact hbase.query s hs
  split
  · exact ⟨hbase.scheme, hbase.authority, hdots href.path, href.query, href.fragment⟩
  · exact ⟨hbase.scheme, hbase.authority, hdots (all_mergePaths hslash hbase href.path),
      href.query, href.fragment⟩

/-- What a reference is resolved to has the bytes of it, of the base and the delimiters. -/
theorem forall_mem_resolve {base ref : List UInt8} (hd : ∀ c ∈ bytesOf ":/?#", p c)
    (hbase : ∀ c ∈ base, p c) (href : ∀ c ∈ ref, p c) : ∀ c ∈ resolve base ref, p c :=
  all_recompose (all_transform (hd _ (by decide)) (all_parse hbase) (all_parse href)) hd

end All

/-! ### The scheme that comes out -/

lemma ne_delimiter_of_isScheme {s : List UInt8} (h : isScheme s = true) :
    ∀ c ∈ s, c ∉ bytesOf ":?#" := by
  have hchar : ∀ c : UInt8, (isalpha c || isdigit c || c ∈ bytesOf "+-.") = true →
      c ∉ bytesOf ":?#" := by
    intro c
    exact forall_uint8 (p := fun c => (isalpha c || isdigit c || c ∈ bytesOf "+-.") = true →
      c ∉ bytesOf ":?#") (by decide +kernel) c
  cases s with
  | nil => simp
  | cons a s =>
    simp only [isScheme, Bool.and_eq_true, List.all_eq_true] at h
    rw [List.forall_mem_cons]
    exact ⟨hchar a (by simp [h.1]), fun c hc => hchar c (h.2 c hc)⟩

/-- What is in front of a colon is the scheme, if it can be one. -/
lemma scheme_parse_of_colon {scheme : List UInt8} (h : isScheme scheme = true)
    (rest : List UInt8) : (parse (scheme ++ ch ':' :: rest)).scheme = some scheme := by
  have hne := ne_delimiter_of_isScheme h
  have hupTo : ∀ {d : UInt8} {t : List UInt8}, d ∈ bytesOf ":?#" →
      upTo d (scheme ++ t) = scheme ++ upTo d t :=
    fun hd => upTo_append (fun hc => hne _ hc hd) _
  have hfront : hierarchical (scheme ++ ch ':' :: rest) =
      scheme ++ ch ':' :: hierarchical rest := by
    rw [hierarchical, hupTo (by decide)]
    have hcons : ∀ {d : UInt8} {t : List UInt8}, ch ':' ≠ d →
        upTo d (ch ':' :: t) = ch ':' :: upTo d t := by
      intro d t hd
      simp [upTo, hd]
    rw [hcons (by decide), hupTo (by decide), hcons (by decide), hierarchical]
  have hcolon : upTo (ch ':') (scheme ++ ch ':' :: hierarchical rest) = scheme := by
    rw [hupTo (by decide)]
    simp [upTo]
  have hbehind : (behind (ch ':') (scheme ++ ch ':' :: hierarchical rest)).isSome = true := by
    rw [behind_append (fun hc => hne _ hc (by decide)), behind_cons_self, Option.isSome_some]
  rw [parse, hfront, schemeOf, hcolon, hbehind, h]
  rfl

lemma hierarchical_cons_slash (s : List UInt8) :
    hierarchical (ch '/' :: s) = ch '/' :: hierarchical s := by
  have hcons : ∀ {d : UInt8} {t : List UInt8}, ch '/' ≠ d →
      upTo d (ch '/' :: t) = ch '/' :: upTo d t := by
    intro d t hd
    simp [upTo, hd]
  rw [hierarchical, hcons (by decide), hcons (by decide), hierarchical]

/-- A path has no scheme. -/
lemma scheme_parse_of_slash (rest : List UInt8) : (parse (ch '/' :: rest)).scheme = none := by
  have hscheme : isScheme (upTo (ch ':') (ch '/' :: hierarchical rest)) = false := by
    rw [upTo, List.takeWhile_cons_of_pos (by decide), isScheme]
    have halpha : isalpha (ch '/') = false := by decide
    rw [halpha, Bool.false_and]
  rw [parse, hierarchical_cons_slash, schemeOf, hscheme, Bool.and_false]
  rfl

lemma scheme_transform {base ref : Reference} (h : ref.scheme = none) :
    (transform base ref).scheme = base.scheme := by
  rw [transform, h, Option.isSome_none, if_neg Bool.false_ne_true]
  split
  · rfl
  · split
    · rfl
    · split <;> rfl

/-- A reference without a scheme comes to a URI of the scheme of its base. -/
theorem resolve_of_relative {scheme : List UInt8} (h : isScheme scheme = true)
    (base : List UInt8) {ref : List UInt8} (href : (parse ref).scheme = none) :
    ∃ rest, resolve (scheme ++ ch ':' :: base) ref = scheme ++ ch ':' :: rest := by
  have hscheme : (transform (parse (scheme ++ ch ':' :: base)) (parse ref)).scheme =
      some scheme := by
    rw [scheme_transform href, scheme_parse_of_colon h]
  rw [resolve, recompose, hscheme]
  exact ⟨_, by simp [bytesOf]; rfl⟩

end Rfc3986
