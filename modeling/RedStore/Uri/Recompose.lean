/-
Taking references apart and putting them together.

A reference that has been taken apart is put together to what it was (section 5.3 of RFC 3986),
and a URI with an authority that is put together from parts without delimiters is taken apart
into them again.
-/
import RedStore.Uri.Rfc3986

namespace Rfc3986
open CLib

/-! ### Delimiters -/

section Delimiters

variable {d : UInt8} {s t : List UInt8}

lemma not_mem_upTo (d : UInt8) (s : List UInt8) : d ∉ upTo d s := by
  intro h
  simpa using List.mem_takeWhile_imp h

lemma upTo_append_of_mem (h : d ∈ s) (t : List UInt8) : upTo d (s ++ t) = upTo d s := by
  induction s with
  | nil => cases h
  | cons c s ih =>
    rw [upTo, upTo, List.cons_append, List.takeWhile_cons, List.takeWhile_cons]
    rcases List.mem_cons.mp h with rfl | h
    · simp
    · split
      · exact congrArg (c :: ·) (ih h)
      · rfl

lemma behind_of_not_mem (h : d ∉ s) : behind d s = none := by
  have happend := behind_append h []
  rwa [List.append_nil] at happend

@[simp] lemma upTo_prefixed (d : UInt8) (part : Option (List UInt8)) :
    upTo d (prefixed [d] part) = [] := by
  cases part with
  | none => rfl
  | some s => exact upTo_cons_self d s

@[simp] lemma behind_prefixed (d : UInt8) (part : Option (List UInt8)) :
    behind d (prefixed [d] part) = part := by
  cases part with
  | none => rfl
  | some s => exact behind_cons_self d s

/-- A delimiter cuts a text in two. -/
lemma upTo_append_behind (d : UInt8) (s : List UInt8) :
    upTo d s ++ prefixed [d] (behind d s) = s := by
  rw [behind]
  cases hdrop : s.dropWhile (· != d) with
  | nil =>
    have hsplit := List.takeWhile_append_dropWhile (p := (· != d)) (l := s)
    rwa [hdrop] at hsplit
  | cons c rest =>
    have hc : c = d := by
      have hne : s.dropWhile (· != d) ≠ [] := by simp [hdrop]
      simpa [hdrop] using List.head_dropWhile_not (· != d) hne
    have hsplit := List.takeWhile_append_dropWhile (p := (· != d)) (l := s)
    rw [hdrop, hc] at hsplit
    exact hsplit

lemma length_behind_lt (h : behind d s = some t) : t.length < s.length := by
  have hlength := congrArg List.length (upTo_append_behind d s)
  rw [h, List.length_append] at hlength
  simp only [prefixed, Option.elim_some, List.length_append, List.length_singleton] at hlength
  omega

lemma not_mem_prefixed {delimiter : List UInt8} {part : Option (List UInt8)}
    (hd : d ∉ delimiter) (h : ∀ s ∈ part, d ∉ s) : d ∉ prefixed delimiter part := by
  have hall : ∀ c ∈ prefixed delimiter part, c ≠ d :=
    all_prefixed (fun c hc heq => hd (heq ▸ hc)) fun s hs c hc heq => h s hs (heq ▸ hc)
  exact fun hmem => hall d hmem rfl

end Delimiters

lemma upTo_comm (d e : UInt8) (s : List UInt8) : upTo d (upTo e s) = upTo e (upTo d s) := by
  induction s with
  | nil => rfl
  | cons c s ih =>
    rw [upTo, upTo] at ih ⊢
    rw [upTo, upTo] at ih ⊢
    by_cases hd : (c != d) = true <;> by_cases he : (c != e) = true <;> simp [hd, he, ih]

/-- What stands behind a delimiter in a text that is cut is cut itself. -/
lemma behind_upTo {d e : UInt8} (hne : d ≠ e) {s t : List UInt8}
    (h : behind d (upTo e s) = some t) : ∃ t', behind d s = some t' ∧ t.length ≤ t'.length := by
  have hsplit := upTo_append_behind d s
  cases hbehind : behind d s with
  | none =>
    rw [hbehind] at hsplit
    have hself : upTo d s = s := by simpa [prefixed] using hsplit
    have hnot : d ∉ upTo e s := fun hmem =>
      not_mem_upTo d s (hself.symm ▸ mem_of_mem_upTo hmem)
    rw [behind_of_not_mem hnot] at h
    cases h
  | some t' =>
    refine ⟨t', rfl, ?_⟩
    rw [hbehind] at hsplit
    have hs : s = upTo d s ++ d :: t' := hsplit.symm
    by_cases hmem : e ∈ upTo d s
    · have hnot : d ∉ upTo e s := by
        rw [hs, upTo_append_of_mem hmem]
        exact fun hd => not_mem_upTo d s (mem_of_mem_upTo hd)
      rw [behind_of_not_mem hnot] at h
      cases h
    · have hcons : upTo e (d :: t') = d :: upTo e t' := by
        rw [upTo, List.takeWhile_cons_of_pos (by simpa using hne), upTo]
      rw [hs, upTo_append hmem, hcons, behind_append (not_mem_upTo d s), behind_cons_self,
        Option.some.injEq] at h
      exact h ▸ (List.takeWhile_sublist _).length_le

/-! ### A reference is what its parts make -/

lemma upTo_colon_of_scheme {s scheme : List UInt8} (h : schemeOf s = some scheme) :
    scheme = upTo (ch ':') s ∧ isScheme scheme = true ∧
      ∃ rest, behind (ch ':') s = some rest := by
  rw [schemeOf] at h
  split at h
  · next hcond =>
    rw [Bool.and_eq_true] at hcond
    obtain rfl := Option.some.inj h
    exact ⟨rfl, hcond.2, Option.isSome_iff_exists.mp hcond.1⟩
  · cases h

lemma schemeOf_append_withoutScheme (s : List UInt8) :
    (schemeOf s).elim [] (· ++ bytesOf ":") ++ withoutScheme s = s := by
  cases hscheme : schemeOf s with
  | none => simp [withoutScheme, hscheme]
  | some scheme =>
    obtain ⟨rfl, -, rest, hrest⟩ := upTo_colon_of_scheme hscheme
    have hsplit := upTo_append_behind (ch ':') s
    rw [hrest] at hsplit
    simpa [withoutScheme, hscheme, hrest, prefixed, bytesOf] using hsplit

lemma authorityOf_append_pathOf (s : List UInt8) :
    prefixed (bytesOf "//") (authorityOf s) ++ pathOf s = s := by
  match s with
  | [] => rfl
  | [a] => rfl
  | a :: b :: rest =>
    simp only [authorityOf, pathOf]
    split
    · next hslashes =>
      obtain ⟨rfl, rfl⟩ := hslashes
      show ch '/' :: ch '/' :: (upTo (ch '/') rest ++ rest.dropWhile (· != ch '/')) = _
      rw [upTo, List.takeWhile_append_dropWhile]
    · rfl

/-- Putting together undoes taking apart. -/
theorem recompose_parse (s : List UInt8) : recompose (parse s) = s := by
  have hfront := schemeOf_append_withoutScheme (hierarchical s)
  have hpath := authorityOf_append_pathOf (withoutScheme (hierarchical s))
  have hquery : hierarchical s ++ prefixed [ch '?'] (behind (ch '?') (upTo (ch '#') s)) =
      upTo (ch '#') s := upTo_append_behind (ch '?') (upTo (ch '#') s)
  have hfragment := upTo_append_behind (ch '#') s
  show _ ++ _ ++ _ ++ prefixed [ch '?'] _ ++ prefixed [ch '#'] _ = s
  rw [List.append_assoc (Option.elim _ _ _)]
  simp only [parse]
  rw [hpath, hfront, hquery, hfragment]

/-! ### Absolute paths -/

/-- The path of a URI with an authority: nothing, or a slash and what follows. -/
def AbsolutePath (path : List UInt8) : Prop := path = [] ∨ path.head? = some (ch '/')

lemma absolutePath_cons (s : List UInt8) : AbsolutePath (ch '/' :: s) := Or.inr rfl

lemma AbsolutePath.of_prefix {s t : List UInt8} (h : AbsolutePath t) (hsplit : s <+: t) :
    AbsolutePath s := by
  obtain ⟨rest, rfl⟩ := hsplit
  cases s with
  | nil => exact Or.inl rfl
  | cons c s => exact h.imp_left (fun h => absurd h (by simp))

lemma absolutePath_dropWhile (s : List UInt8) : AbsolutePath (s.dropWhile (· != ch '/')) := by
  cases hdrop : s.dropWhile (· != ch '/') with
  | nil => exact Or.inl rfl
  | cons c rest =>
    have hne : s.dropWhile (· != ch '/') ≠ [] := by simp [hdrop]
    have hfirst := List.head_dropWhile_not (· != ch '/') hne
    simp only [hdrop, List.head_cons, bne_eq_false_iff_eq] at hfirst
    exact Or.inr (congrArg some hfirst)

lemma AbsolutePath.append {s t : List UInt8} (hs : AbsolutePath s) (ht : AbsolutePath t) :
    AbsolutePath (s ++ t) := by
  cases s with
  | nil => exact ht
  | cons c s => exact Or.inr (hs.resolve_left (by simp))

/-! ### The parts of a URI -/

/-- A URI with an authority, by its parts, none of which has a delimiter of a later one. -/
structure Reference.Hierarchical (r : Reference) : Prop where
  scheme : ∃ s, r.scheme = some s ∧ isScheme s = true
  authority : ∃ a, r.authority = some a ∧ ch '/' ∉ a ∧ ch '?' ∉ a ∧ ch '#' ∉ a
  path : r.path = [] ∨ r.path.head? = some (ch '/')
  path_query : ch '?' ∉ r.path
  path_fragment : ch '#' ∉ r.path
  query : ∀ q ∈ r.query, ch '#' ∉ q

/-- The part of a reference in front of its query. -/
def front (r : Reference) : List UInt8 :=
  r.scheme.elim [] (· ++ bytesOf ":") ++ prefixed (bytesOf "//") r.authority ++ r.path

lemma recompose_eq (r : Reference) :
    recompose r = front r ++ (prefixed [ch '?'] r.query ++ prefixed [ch '#'] r.fragment) := by
  rw [← List.append_assoc]
  rfl

lemma mem_of_isScheme {s : List UInt8} (h : isScheme s = true) :
    ∀ c ∈ s, (isalpha c || isdigit c || c ∈ bytesOf "+-.") = true := by
  cases s with
  | nil => simp
  | cons a s =>
    simp only [isScheme, Bool.and_eq_true, List.all_eq_true] at h
    rw [List.forall_mem_cons]
    exact ⟨by simp [h.1], h.2⟩

/-- A URI begins with its scheme. -/
lemma eq_of_scheme {s scheme : List UInt8} (h : (parse s).scheme = some scheme) :
    ∃ rest, s = scheme ++ ch ':' :: rest := by
  have hparts := recompose_parse s
  rw [recompose, h] at hparts
  simp only [Option.elim_some, List.append_assoc] at hparts
  exact ⟨_, hparts.symm⟩

lemma not_mem_of_isScheme {s : List UInt8} (h : isScheme s = true) :
    ch ':' ∉ s ∧ ch '?' ∉ s ∧ ch '#' ∉ s :=
  ⟨fun hc => ne_delimiter_of_isScheme h _ hc (by decide),
    fun hc => ne_delimiter_of_isScheme h _ hc (by decide),
    fun hc => ne_delimiter_of_isScheme h _ hc (by decide)⟩

/-- What stands behind a front without their delimiters are the query and the fragment. -/
lemma upTo_recompose {r : Reference} (hquestion : ch '?' ∉ front r) (hhash : ch '#' ∉ front r)
    (hquery : ∀ q ∈ r.query, ch '#' ∉ q) :
    upTo (ch '#') (recompose r) = front r ++ prefixed [ch '?'] r.query ∧
      hierarchical (recompose r) = front r ∧ (parse (recompose r)).query = r.query ∧
      (parse (recompose r)).fragment = r.fragment := by
  have hmiddle : ch '#' ∉ front r ++ prefixed [ch '?'] r.query := by
    rw [List.mem_append, not_or]
    exact ⟨hhash, not_mem_prefixed (by decide) hquery⟩
  have hcut : upTo (ch '#') (recompose r) = front r ++ prefixed [ch '?'] r.query := by
    rw [recompose_eq, ← List.append_assoc, upTo_append hmiddle, upTo_prefixed, List.append_nil]
  refine ⟨hcut, ?_, ?_, ?_⟩
  · rw [hierarchical, hcut, upTo_append hquestion, upTo_prefixed, List.append_nil]
  · show behind (ch '?') (upTo (ch '#') (recompose r)) = r.query
    rw [hcut, behind_append hquestion, behind_prefixed]
  · show behind (ch '#') (recompose r) = r.fragment
    rw [recompose_eq, ← List.append_assoc, behind_append hmiddle, behind_prefixed]

lemma front_of_parts {r : Reference} {s a : List UInt8} (hs : r.scheme = some s)
    (ha : r.authority = some a) :
    front r = s ++ ch ':' :: (ch '/' :: ch '/' :: (a ++ r.path)) := by
  simp [front, hs, ha, prefixed, bytesOf]

lemma not_mem_front_of_parts {r : Reference} {s a : List UInt8} {d : UInt8}
    (hs : r.scheme = some s) (ha : r.authority = some a) (hds : d ∉ s) (hda : d ∉ a)
    (hdp : d ∉ r.path) (hcolon : d ≠ ch ':') (hslash : d ≠ ch '/') : d ∉ front r := by
  rw [front_of_parts hs ha]
  simp [hds, hda, hdp, hcolon, hslash]

/-- A URI with an authority is taken apart into the parts that it has been made of. -/
theorem parse_recompose {r : Reference} (h : r.Hierarchical) : parse (recompose r) = r := by
  obtain ⟨s, hs, hscheme⟩ := h.scheme
  obtain ⟨a, ha, haslash, haquestion, hahash⟩ := h.authority
  obtain ⟨hscolon, hsquestion, hshash⟩ := not_mem_of_isScheme hscheme
  have hfront := front_of_parts hs ha
  obtain ⟨-, hhier, hquery, hfragment⟩ := upTo_recompose
    (not_mem_front_of_parts hs ha hsquestion haquestion h.path_query (by decide) (by decide))
    (not_mem_front_of_parts hs ha hshash hahash h.path_fragment (by decide) (by decide)) h.query
  have hschemeOf : schemeOf (front r) = some s := by
    rw [schemeOf, hfront, behind_append hscolon, behind_cons_self, upTo_append hscolon,
      upTo_cons_self, List.append_nil, hscheme]
    rfl
  have hwithout : withoutScheme (front r) = ch '/' :: ch '/' :: (a ++ r.path) := by
    rw [withoutScheme, hschemeOf, hfront, behind_append hscolon, behind_cons_self]
    rfl
  have hpath : upTo (ch '/') r.path = [] ∧ r.path.dropWhile (· != ch '/') = r.path := by
    rcases h.path with hnil | hslash
    · rw [hnil]
      exact ⟨rfl, rfl⟩
    · obtain ⟨rest, hrest⟩ : ∃ rest, r.path = ch '/' :: rest := by
        cases hp : r.path with
        | nil => simp [hp] at hslash
        | cons c rest => exact ⟨rest, by simpa [hp] using hslash⟩
      rw [hrest]
      exact ⟨upTo_cons_self _ _, by simp⟩
  have hauthority : authorityOf (withoutScheme (front r)) = some a := by
    rw [hwithout, authorityOf, if_pos ⟨rfl, rfl⟩, upTo_append haslash, hpath.1, List.append_nil]
  have hpathOf : pathOf (withoutScheme (front r)) = r.path := by
    rw [hwithout, pathOf, if_pos ⟨rfl, rfl⟩, dropWhile_bne_append haslash, hpath.2]
  show Reference.mk (schemeOf (hierarchical (recompose r)))
    (authorityOf (withoutScheme (hierarchical (recompose r))))
    (pathOf (withoutScheme (hierarchical (recompose r)))) (parse (recompose r)).query
    (parse (recompose r)).fragment = r
  rw [hhier, hquery, hfragment, hschemeOf, hauthority, hpathOf, ← hs, ← ha]

/-! ### The parts of a string -/

/-- A reference with a scheme and an authority. -/
lemma parse_of_authority (scheme : List UInt8) (h : isScheme scheme = true)
    (rest : List UInt8) :
    (parse (scheme ++ ch ':' :: ch '/' :: ch '/' :: rest)).scheme = some scheme ∧
      (parse (scheme ++ ch ':' :: ch '/' :: ch '/' :: rest)).authority =
        some (upTo (ch '/') (hierarchical rest)) := by
  obtain ⟨hcolon, hquestion, hhash⟩ := not_mem_of_isScheme h
  refine ⟨scheme_parse_of_colon h _, ?_⟩
  have hnot : ∀ d, d ∉ scheme → d ≠ ch ':' → d ≠ ch '/' →
      d ∉ scheme ++ bytesOf "://" := by
    intro d hd hcolon hslash
    simp [bytesOf, hd, hcolon, hslash]
  have hsplit : scheme ++ ch ':' :: ch '/' :: ch '/' :: rest =
      scheme ++ bytesOf "://" ++ rest := by
    simp [bytesOf]
  have hhier : hierarchical (scheme ++ ch ':' :: ch '/' :: ch '/' :: rest) =
      scheme ++ ch ':' :: ch '/' :: ch '/' :: hierarchical rest := by
    rw [hsplit, hierarchical, upTo_append (hnot _ hhash (by decide) (by decide)),
      upTo_append (hnot _ hquestion (by decide) (by decide)), hierarchical]
    simp [bytesOf]
  have hscheme : schemeOf (scheme ++ ch ':' :: ch '/' :: ch '/' :: hierarchical rest) =
      some scheme := by
    rw [schemeOf, behind_append hcolon, behind_cons_self, upTo_append hcolon, upTo_cons_self,
      List.append_nil, h]
    rfl
  have hwithout : withoutScheme (scheme ++ ch ':' :: ch '/' :: ch '/' :: hierarchical rest) =
      ch '/' :: ch '/' :: hierarchical rest := by
    rw [withoutScheme, hscheme, behind_append hcolon, behind_cons_self]
    rfl
  show authorityOf (withoutScheme (hierarchical _)) = _
  rw [hhier, hwithout, authorityOf, if_pos ⟨rfl, rfl⟩]

lemma not_mem_hierarchical (s : List UInt8) :
    ch '?' ∉ hierarchical s ∧ ch '#' ∉ hierarchical s :=
  ⟨not_mem_upTo _ _, fun h => not_mem_upTo (ch '#') s (mem_of_mem_upTo h)⟩

lemma hash_not_mem_query {s q : List UInt8} (h : (parse s).query = some q) : ch '#' ∉ q :=
  fun hmem => not_mem_upTo (ch '#') s (mem_of_mem_behind h hmem)

lemma authority_eq {s a : List UInt8} (h : authorityOf s = some a) :
    ∃ rest, s = ch '/' :: ch '/' :: rest ∧ a = upTo (ch '/') rest ∧
      pathOf s = rest.dropWhile (· != ch '/') := by
  match s with
  | [] => simp [authorityOf] at h
  | [c] => simp [authorityOf] at h
  | c :: d :: rest =>
    simp only [authorityOf] at h
    split at h
    · next hslashes =>
      obtain ⟨rfl, rfl⟩ := hslashes
      exact ⟨rest, rfl, (Option.some.inj h).symm, by rw [pathOf, if_pos ⟨rfl, rfl⟩]⟩
    · cases h

/-- A string with a scheme and an authority is taken apart into parts without delimiters. -/
theorem hierarchical_parse {s : List UInt8} (hscheme : (parse s).scheme.isSome = true)
    (hauthority : (parse s).authority.isSome = true) : (parse s).Hierarchical := by
  obtain ⟨scheme, hscheme⟩ := Option.isSome_iff_exists.mp hscheme
  obtain ⟨a, ha⟩ := Option.isSome_iff_exists.mp hauthority
  obtain ⟨hquestion, hhash⟩ := not_mem_hierarchical s
  have hauth : ∀ d, d ∉ hierarchical s → d ∉ a := fun d hd hmem =>
    hd (mem_of_mem_withoutScheme (mem_of_mem_authorityOf ha hmem))
  have hpath : ∀ d, d ∉ hierarchical s → d ∉ (parse s).path := fun d hd hmem =>
    hd (mem_of_mem_withoutScheme (mem_of_mem_pathOf hmem))
  obtain ⟨rest, -, hupTo, hrest⟩ := authority_eq ha
  refine ⟨⟨scheme, hscheme, (upTo_colon_of_scheme hscheme).2.1⟩,
    ⟨a, ha, hupTo ▸ not_mem_upTo _ _, hauth _ hquestion, hauth _ hhash⟩, ?_,
    hpath _ hquestion, hpath _ hhash, fun q hq => hash_not_mem_query hq⟩
  rw [show (parse s).path = _ from hrest]
  exact absolutePath_dropWhile rest

/-- A URI by its scheme, its authority and what stands behind them. -/
lemma parse_of_path {scheme a : List UInt8} (h : isScheme scheme = true) (hslash : ch '/' ∉ a)
    (hquestion : ch '?' ∉ a) (hhash : ch '#' ∉ a) (s : List UInt8) :
    parse (scheme ++ ch ':' :: ch '/' :: ch '/' :: (a ++ ch '/' :: s)) =
      { scheme := some scheme, authority := some a, path := ch '/' :: hierarchical s,
        query := behind (ch '?') (upTo (ch '#') s), fragment := behind (ch '#') s } := by
  obtain ⟨hpath, hpath'⟩ := not_mem_hierarchical s
  have hsplit : hierarchical s ++ (prefixed [ch '?'] (behind (ch '?') (upTo (ch '#') s)) ++
      prefixed [ch '#'] (behind (ch '#') s)) = s := by
    rw [← List.append_assoc, hierarchical, upTo_append_behind, upTo_append_behind]
  have hparts : recompose
      { scheme := some scheme, authority := some a, path := ch '/' :: hierarchical s,
        query := behind (ch '?') (upTo (ch '#') s), fragment := behind (ch '#') s } =
      scheme ++ ch ':' :: ch '/' :: ch '/' :: (a ++ ch '/' :: s) := by
    rw [recompose_eq, front_of_parts rfl rfl]
    simpa using hsplit
  rw [← hparts]
  exact parse_recompose ⟨⟨scheme, rfl, h⟩, ⟨a, rfl, hslash, hquestion, hhash⟩, Or.inr rfl,
    by simpa [ch] using hpath, by simpa [ch] using hpath', fun q hq => hash_not_mem_query hq⟩

/-! ### Dot segments -/

section Dots

variable {input output : List UInt8}

lemma eq_of_afterPrefix {pre : String} {rest : List UInt8}
    (h : afterPrefix pre input = some rest) : input = bytesOf pre ++ rest := by
  rw [afterPrefix] at h
  split at h
  · next hsplit =>
    obtain ⟨rest', rfl⟩ := List.isPrefixOf_iff_prefix.mp hsplit
    rw [List.drop_left, Option.some.injEq] at h
    rw [h]
  · cases h

lemma length_dropSegment_le (output : List UInt8) : (dropSegment output).length ≤ output.length := by
  rw [dropSegment, List.length_dropLast]
  exact (Nat.sub_le _ _).trans (List.rdropWhile_prefix _ _).length_le

lemma append_drop_firstSegment (input : List UInt8) :
    firstSegment input ++ input.drop (firstSegment input).length = input := by
  cases input with
  | nil => rfl
  | cons c s =>
    rw [firstSegment, List.length_cons, List.drop_succ_cons, List.cons_append]
    exact congrArg (c :: ·) (List.prefix_iff_eq_append.mp (List.takeWhile_prefix _))

lemma firstSegment_isPrefix (input : List UInt8) : firstSegment input <+: input :=
  ⟨_, append_drop_firstSegment input⟩

/-- A step moves a segment to the output, or it takes something away. -/
lemma dotStep_eq_or_shorter (input output : List UInt8) :
    (dotStep input output).2 ++ (dotStep input output).1 = output ++ input ∨
      ((dotStep input output).2 ++ (dotStep input output).1).length <
        (output ++ input).length := by
  have hdrop := length_dropSegment_le output
  -- what a prefix is replaced by is shorter than the prefix
  have hshorter : ∀ (pre front : String) (rest output' : List UInt8),
      input = bytesOf pre ++ rest → (bytesOf front).length < (bytesOf pre).length →
        output'.length ≤ output.length →
        (output' ++ (bytesOf front ++ rest)).length < (output ++ input).length := by
    rintro pre front rest output' rfl hfront houtput
    simp only [List.length_append]
    omega
  rw [dotStep]
  split
  · next h => exact Or.inr (hshorter "../" "" _ _ (eq_of_afterPrefix h) (by decide) le_rfl)
  · next h => exact Or.inr (hshorter "./" "" _ _ (eq_of_afterPrefix h) (by decide) le_rfl)
  · next h => exact Or.inr (hshorter "/./" "/" _ _ (eq_of_afterPrefix h) (by decide) le_rfl)
  · next h => exact Or.inr (hshorter "/../" "/" _ _ (eq_of_afterPrefix h) (by decide) hdrop)
  · split
    · next h => exact Or.inr (hshorter "/." "/" [] _ h (by decide) le_rfl)
    split
    · next h => exact Or.inr (hshorter "/.." "/" [] _ h (by decide) hdrop)
    split
    · next h =>
      rcases h with h | h
      · exact Or.inr (hshorter "." "" [] _ h (by decide) le_rfl)
      · exact Or.inr (hshorter ".." "" [] _ h (by decide) le_rfl)
    · exact Or.inl (by rw [List.append_assoc, append_drop_firstSegment])

lemma removeDotsFrom_eq_or_shorter (n : ℕ) (input output : List UInt8) :
    removeDotsFrom n input output = output ++ input ∨
      (removeDotsFrom n input output).length < (output ++ input).length := by
  induction n generalizing input output with
  | zero =>
    cases input with
    | nil => exact Or.inl (List.append_nil _).symm
    | cons c s => exact Or.inr (by simp [removeDotsFrom])
  | succ n ih =>
    rw [removeDotsFrom]
    split
    · next h => exact Or.inl (by rw [h, List.append_nil])
    · rcases ih (dotStep input output).1 (dotStep input output).2 with heq | hlt
      · rw [heq]
        exact dotStep_eq_or_shorter input output
      · refine Or.inr (hlt.trans_le ?_)
        rcases dotStep_eq_or_shorter input output with heq | hlt
        · rw [heq]
        · exact hlt.le

/-- Removing dot segments shortens a path that has any. -/
theorem removeDotSegments_eq_or_shorter (path : List UInt8) :
    removeDotSegments path = path ∨ (removeDotSegments path).length < path.length :=
  removeDotsFrom_eq_or_shorter path.length path []

lemma length_removeDotSegments_le (path : List UInt8) :
    (removeDotSegments path).length ≤ path.length := by
  rcases removeDotSegments_eq_or_shorter path with heq | hlt
  · rw [heq]
  · exact hlt.le

/-- Without a dot there is nothing to remove. -/
lemma dotStep_of_not_mem (hdot : ch '.' ∉ input) (output : List UInt8) : dotStep input output =
    (input.drop (firstSegment input).length, output ++ firstSegment input) := by
  have hnone : ∀ pre, ch '.' ∈ bytesOf pre → afterPrefix pre input = none := by
    intro pre hpre
    rw [Option.eq_none_iff_forall_ne_some]
    intro rest h
    exact hdot (eq_of_afterPrefix h ▸ List.mem_append_left _ hpre)
  have hne : ∀ pre, ch '.' ∈ bytesOf pre → input ≠ bytesOf pre := fun pre hpre h => hdot (h ▸ hpre)
  rw [dotStep, hnone "../" (by decide), hnone "./" (by decide), hnone "/./" (by decide),
    hnone "/../" (by decide)]
  dsimp only
  rw [if_neg (hne "/." (by decide)), if_neg (hne "/.." (by decide)), if_neg]
  rintro (h | h)
  · exact hne "." (by decide) h
  · exact hne ".." (by decide) h

lemma removeDotsFrom_of_not_mem {n : ℕ} (hn : input.length ≤ n) (hdot : ch '.' ∉ input)
    (output : List UInt8) : removeDotsFrom n input output = output ++ input := by
  induction n generalizing input output with
  | zero =>
    rw [List.eq_nil_of_length_eq_zero (Nat.le_zero.mp hn), List.append_nil]
    rfl
  | succ n ih =>
    rw [removeDotsFrom]
    split
    · next hnil => rw [hnil, List.append_nil]
    · next hne =>
      have hpos : 0 < (firstSegment input).length := by
        cases input with
        | nil => exact absurd rfl hne
        | cons c s => simp [firstSegment]
      rw [dotStep_of_not_mem hdot, ih, List.append_assoc, append_drop_firstSegment]
      · rw [List.length_drop]
        omega
      · exact fun h => hdot (List.mem_of_mem_drop h)

lemma removeDotSegments_of_not_mem {path : List UInt8} (hdot : ch '.' ∉ path) :
    removeDotSegments path = path :=
  removeDotsFrom_of_not_mem le_rfl hdot []

lemma absolutePath_drop_firstSegment {s : List UInt8} (h : AbsolutePath s) :
    AbsolutePath (s.drop (firstSegment s).length) := by
  cases s with
  | nil => exact h
  | cons c s =>
    have hdrop : s.drop (upTo (ch '/') s).length = s.dropWhile (· != ch '/') := by
      have hsplit : upTo (ch '/') s ++ s.drop (upTo (ch '/') s).length =
          upTo (ch '/') s ++ s.dropWhile (· != ch '/') := by
        rw [upTo, List.prefix_iff_eq_append.mp (List.takeWhile_prefix _),
          List.takeWhile_append_dropWhile]
      exact List.append_cancel_left hsplit
    rw [firstSegment, List.length_cons, List.drop_succ_cons, hdrop]
    exact absolutePath_dropWhile s

lemma absolutePath_dotStep (hi : AbsolutePath input) (ho : AbsolutePath output) :
    AbsolutePath (dotStep input output).1 ∧ AbsolutePath (dotStep input output).2 := by
  have hdrop : AbsolutePath (dropSegment output) :=
    ho.of_prefix ((List.dropLast_prefix _).trans (List.rdropWhile_prefix _ _))
  -- an absolute path does not start with a dot
  have hno : ∀ {pre : String} {rest : List UInt8}, afterPrefix pre input = some rest →
      (bytesOf pre).head? ≠ some (ch '.') := by
    intro pre rest h hdot
    rw [eq_of_afterPrefix h] at hi
    rcases hi with hnil | hslash
    · simp [List.append_eq_nil_iff.mp hnil] at hdot
    · simp [List.head?_append, hdot, ch] at hslash
  rw [dotStep]
  split
  · next h => exact absurd rfl (hno h)
  · next h => exact absurd rfl (hno h)
  · exact ⟨absolutePath_cons _, ho⟩
  · exact ⟨absolutePath_cons _, hdrop⟩
  · split
    · exact ⟨absolutePath_cons _, ho⟩
    split
    · exact ⟨absolutePath_cons _, hdrop⟩
    split
    · exact ⟨Or.inl rfl, ho⟩
    · exact ⟨absolutePath_drop_firstSegment hi, ho.append (hi.of_prefix (firstSegment_isPrefix input))⟩

lemma absolutePath_removeDotsFrom (n : ℕ) (hi : AbsolutePath input) (ho : AbsolutePath output) :
    AbsolutePath (removeDotsFrom n input output) := by
  induction n generalizing input output with
  | zero => exact ho
  | succ n ih =>
    rw [removeDotsFrom]
    split
    · exact ho
    · obtain ⟨hi', ho'⟩ := absolutePath_dotStep hi ho
      exact ih hi' ho'

lemma not_mem_removeDotSegments {d : UInt8} (hd : d ≠ ch '/') {path : List UInt8}
    (h : d ∉ path) : d ∉ removeDotSegments path := by
  have hall : ∀ c ∈ removeDotSegments path, c ≠ d :=
    all_removeDotsFrom (fun heq => hd heq.symm) (fun c hc heq => h (heq ▸ hc)) (by simp)
  exact fun hmem => hall d hmem rfl

end Dots

/-! ### Resolution -/

/-- A reference to the same document comes to the base, with the fragment of the reference. -/
theorem resolve_of_sameDocument {base ref : List UInt8} (hbase : ch '#' ∉ base)
    (h : (parse ref).SameDocument) :
    resolve base ref = base ++ prefixed [ch '#'] (parse ref).fragment := by
  have hself := recompose_parse base
  rw [recompose_eq, show (parse base).fragment = none from behind_of_not_mem hbase] at hself
  have hnone : prefixed [ch '#'] none = [] := rfl
  rw [hnone, List.append_nil] at hself
  rw [resolve, transform_of_sameDocument h, recompose_eq, ← List.append_assoc]
  exact congrArg (· ++ prefixed [ch '#'] (parse ref).fragment) hself

lemma resolve_of_scheme {ref : List UInt8} (h : (parse ref).scheme.isSome = true)
    (base : List UInt8) :
    resolve base ref =
      recompose { parse ref with path := removeDotSegments (parse ref).path } := by
  rw [resolve, transform, if_pos h]

/-- A URI comes to itself exactly if there are no dot segments in its path. -/
theorem resolve_eq_self_iff {ref : List UInt8} (h : (parse ref).scheme.isSome = true)
    (base : List UInt8) :
    resolve base ref = ref ↔ removeDotSegments (parse ref).path = (parse ref).path := by
  constructor
  · intro heq
    have hparts := heq.trans (recompose_parse ref).symm
    rw [resolve_of_scheme h, recompose, recompose] at hparts
    exact List.append_cancel_left (List.append_cancel_right (List.append_cancel_right hparts))
  · intro heq
    rw [resolve_of_scheme h, heq]
    exact recompose_parse ref

/-- An absolute path is one on the authority of the base. -/
lemma transform_of_path {base ref : Reference} (hscheme : ref.scheme = none)
    (hauthority : ref.authority = none) (hpath : ref.path.head? = some (ch '/')) :
    transform base ref =
      { ref with scheme := base.scheme, authority := base.authority,
                 path := removeDotSegments ref.path } := by
  have hne : ref.path ≠ [] := by
    rintro hnil
    simp [hnil] at hpath
  simp [transform, hscheme, hauthority, hpath, hne]

lemma query_transform {base ref : Reference} (h : ¬ ref.SameDocument) :
    (transform base ref).query = ref.query := by
  rw [transform]
  split_ifs with hs ha hp hslash
  · rfl
  · rfl
  · cases hquery : ref.query with
    | some q => rfl
    | none => exact absurd ⟨by simpa using hs, by simpa using ha, hp, hquery⟩ h
  · rfl
  · rfl

/-- A reference without what stands behind its path. -/
def Reference.withoutQuery (r : Reference) : Reference := { r with query := none, fragment := none }

lemma withoutQuery_transform (base ref : Reference) :
    (transform base ref).withoutQuery = transform base.withoutQuery ref.withoutQuery := by
  rw [transform, transform]
  simp only [apply_ite Reference.withoutQuery]
  rfl

lemma all_withoutQuery_parse {d : UInt8} {s : List UInt8} (h : d ∉ hierarchical s) :
    (parse s).withoutQuery.All (· ≠ d) := by
  have hall : ∀ c ∈ hierarchical s, c ≠ d := fun c hc heq => h (heq ▸ hc)
  refine ⟨fun t ht c hc => hall c (mem_of_mem_schemeOf ht hc), fun t ht c hc => ?_,
    fun c hc => ?_, by rintro _ ⟨⟩, by rintro _ ⟨⟩⟩
  · exact hall c (mem_of_mem_withoutScheme (mem_of_mem_authorityOf ht hc))
  · exact hall c (mem_of_mem_withoutScheme (mem_of_mem_pathOf hc))

lemma not_mem_front {d : UInt8} {r : Reference} (h : r.All (· ≠ d)) (hcolon : d ≠ ch ':')
    (hslash : d ≠ ch '/') : d ∉ front r := by
  have hscheme : d ∉ r.scheme.elim [] (· ++ bytesOf ":") := by
    cases hs : r.scheme with
    | none => simp
    | some s =>
      simp only [Option.elim_some, List.mem_append, not_or]
      exact ⟨fun hmem => h.scheme s hs d hmem rfl, by simp [bytesOf, hcolon]⟩
  rw [front, List.mem_append, List.mem_append, not_or, not_or]
  refine ⟨⟨hscheme, not_mem_prefixed (by simp [bytesOf, hslash]) ?_⟩, fun hmem => ?_⟩
  · exact fun a ha hmem => h.authority a ha d hmem rfl
  · exact h.path d hmem rfl

/-- Unless it is to the same document, a reference brings its query along. -/
theorem query_resolve (base : List UInt8) {ref : List UInt8} (h : ¬ (parse ref).SameDocument) :
    (parse (resolve base ref)).query = (parse ref).query := by
  have hnot : ∀ d, d ∉ hierarchical base → d ∉ hierarchical ref → d ≠ ch ':' → d ≠ ch '/' →
      d ∉ front (transform (parse base) (parse ref)) := by
    intro d hbase href hcolon hslash
    have hall : (transform (parse base) (parse ref)).withoutQuery.All (· ≠ d) := by
      rw [withoutQuery_transform]
      exact all_transform (fun heq => hslash heq.symm) (all_withoutQuery_parse hbase)
        (all_withoutQuery_parse href)
    exact not_mem_front (r := (transform (parse base) (parse ref)).withoutQuery) hall hcolon hslash
  obtain ⟨hbase, hbase'⟩ := not_mem_hierarchical base
  obtain ⟨href, href'⟩ := not_mem_hierarchical ref
  have hquery : ∀ q ∈ (transform (parse base) (parse ref)).query, ch '#' ∉ q := by
    rw [query_transform h]
    exact fun q hq => hash_not_mem_query hq
  obtain ⟨-, -, hparts, -⟩ := upTo_recompose (hnot _ hbase href (by decide) (by decide))
    (hnot _ hbase' href' (by decide) (by decide)) hquery
  rw [resolve, hparts, query_transform h]

/-! ### References that start with a slash -/

lemma withoutScheme_of_relative {ref : List UInt8} (h : (parse ref).scheme = none) :
    withoutScheme (hierarchical ref) = hierarchical ref := by
  rw [withoutScheme, show schemeOf (hierarchical ref) = none from h]
  rfl

/-- What is in front of the query, for a reference without a scheme. -/
lemma authority_append_path_of_relative {ref : List UInt8} (h : (parse ref).scheme = none) :
    prefixed (bytesOf "//") (parse ref).authority ++ (parse ref).path = hierarchical ref := by
  show prefixed _ (authorityOf (withoutScheme (hierarchical ref))) ++
    pathOf (withoutScheme (hierarchical ref)) = _
  rw [withoutScheme_of_relative h]
  exact authorityOf_append_pathOf (hierarchical ref)

section Slash

variable {base s : List UInt8}

lemma hierarchical_isPrefix (s : List UInt8) : hierarchical s <+: s :=
  (List.takeWhile_prefix _).trans (List.takeWhile_prefix _)

/-- Without an authority everything in front of the query is the path. -/
lemma path_parse_of_slash (h : (parse (ch '/' :: s)).authority = none) :
    (parse (ch '/' :: s)).path = ch '/' :: hierarchical s := by
  have hsplit := authority_append_path_of_relative (scheme_parse_of_slash s)
  rwa [h, hierarchical_cons_slash] at hsplit

/-- There is an authority exactly behind a second slash. -/
lemma authority_parse_of_slash_iff :
    (parse (ch '/' :: s)).authority = none ↔ ∀ rest, s ≠ ch '/' :: rest := by
  constructor
  · rintro hnone rest rfl
    have hsame := withoutScheme_of_relative (scheme_parse_of_slash (ch '/' :: rest))
    rw [show (parse (ch '/' :: ch '/' :: rest)).authority = authorityOf (withoutScheme _) from rfl,
      hsame, hierarchical_cons_slash, hierarchical_cons_slash, authorityOf, if_pos ⟨rfl, rfl⟩]
      at hnone
    cases hnone
  · intro h
    cases ha : (parse (ch '/' :: s)).authority with
    | none => rfl
    | some a =>
      have hsplit := authority_append_path_of_relative (scheme_parse_of_slash s)
      rw [ha, hierarchical_cons_slash] at hsplit
      obtain ⟨more, hmore⟩ : ∃ more, hierarchical s = ch '/' :: more :=
        ⟨_, (List.cons.inj hsplit).2.symm⟩
      obtain ⟨rest, hrest⟩ := hierarchical_isPrefix s
      rw [hmore] at hrest
      exact absurd hrest.symm (h _)

/-- A reference that starts with a slash is as long as its path only if it is a path and has no
dot segments. -/
lemma own_path_of_length
    (h : s.length + 1 ≤ max 1 (removeDotSegments (parse (ch '/' :: s)).path).length) :
    (parse (ch '/' :: s)).authority = none ∧ hierarchical (ch '/' :: s) = ch '/' :: s ∧
      removeDotSegments (ch '/' :: s) = ch '/' :: s := by
  have hdots := length_removeDotSegments_le (parse (ch '/' :: s)).path
  have hfront := (hierarchical_isPrefix (ch '/' :: s)).length_le
  rw [List.length_cons] at hfront
  cases hown : (parse (ch '/' :: s)).authority with
  | some a =>
    -- an authority takes the place of two slashes at least
    have hsplit := congrArg List.length
      (authority_append_path_of_relative (scheme_parse_of_slash s))
    simp only [hown, prefixed, Option.elim_some, List.length_append] at hsplit
    have htwo : (bytesOf "//").length = 2 := rfl
    omega
  | none =>
    rw [path_parse_of_slash hown, ← hierarchical_cons_slash] at h hdots
    have hcons : (hierarchical (ch '/' :: s)).length = (hierarchical s).length + 1 := by
      rw [hierarchical_cons_slash, List.length_cons]
    have hwhole : hierarchical (ch '/' :: s) = ch '/' :: s := by
      refine (hierarchical_isPrefix _).eq_of_length_le ?_
      rw [List.length_cons]
      omega
    rw [hwhole] at h
    refine ⟨rfl, hwhole, (removeDotSegments_eq_or_shorter _).resolve_right fun hshorter => ?_⟩
    -- only a single slash could be missing
    rw [List.length_cons] at hshorter
    obtain rfl : s = [] := List.eq_nil_of_length_eq_zero (by omega)
    exact absurd hshorter (by decide)

lemma absolutePath_parse_of_slash (s : List UInt8) :
    AbsolutePath (parse (ch '/' :: s)).path := by
  cases ha : (parse (ch '/' :: s)).authority with
  | none =>
    rw [path_parse_of_slash ha]
    exact absolutePath_cons _
  | some a =>
    obtain ⟨rest, -, -, hrest⟩ := authority_eq ha
    rw [show (parse (ch '/' :: s)).path = _ from hrest]
    exact absolutePath_dropWhile rest

lemma transform_of_slash (base : Reference) (s : List UInt8) :
    transform base (parse (ch '/' :: s)) =
      { parse (ch '/' :: s) with
        scheme := base.scheme
        authority := (parse (ch '/' :: s)).authority.or base.authority
        path := removeDotSegments (parse (ch '/' :: s)).path } := by
  have hscheme := scheme_parse_of_slash s
  cases ha : (parse (ch '/' :: s)).authority with
  | none =>
    have hpath : (parse (ch '/' :: s)).path.head? = some (ch '/') := by
      rw [path_parse_of_slash ha]
      rfl
    exact transform_of_path hscheme ha hpath
  | some a =>
    rw [transform, if_neg (by simp [hscheme]), if_pos (by simp [ha])]
    simp [ha]

/-- A path without a query, a fragment and dots takes the place of that of the base. -/
theorem resolve_of_plain_path (base : List UInt8) {s : List UInt8}
    (hslash : ∀ rest, s ≠ ch '/' :: rest) (hquestion : ch '?' ∉ s) (hhash : ch '#' ∉ s)
    (hdot : ch '.' ∉ s) :
    resolve base (ch '/' :: s) = front { parse base with path := ch '/' :: s } := by
  have hhashes : upTo (ch '#') (ch '/' :: s) = ch '/' :: s :=
    upTo_eq_self (by simpa using ⟨by decide, hhash⟩)
  have hself : hierarchical s = s := by
    rw [hierarchical, upTo_eq_self hhash, upTo_eq_self hquestion]
  have hauthority := authority_parse_of_slash_iff.mpr hslash
  have hpath : (parse (ch '/' :: s)).path = ch '/' :: s := by
    rw [path_parse_of_slash hauthority, hself]
  have hquery : (parse (ch '/' :: s)).query = none := by
    show behind (ch '?') (upTo (ch '#') (ch '/' :: s)) = none
    rw [hhashes]
    exact behind_of_not_mem (by simpa using ⟨by decide, hquestion⟩)
  have hfragment : (parse (ch '/' :: s)).fragment = none :=
    behind_of_not_mem (by simpa using ⟨by decide, hhash⟩)
  have hdots : removeDotSegments (ch '/' :: s) = ch '/' :: s :=
    removeDotSegments_of_not_mem (by simpa using ⟨by decide, hdot⟩)
  rw [resolve, transform_of_slash, recompose_eq, hauthority, hpath, hquery, hfragment, hdots]
  exact List.append_nil _

/-- A reference that starts with a slash is taken to the authority that it names, or else to that
of the base, with its own path and query. -/
theorem parse_resolve_of_slash (hscheme : (parse base).scheme.isSome = true)
    (hauthority : (parse base).authority.isSome = true) (s : List UInt8) :
    parse (resolve base (ch '/' :: s)) =
      { parse (ch '/' :: s) with
        scheme := (parse base).scheme
        authority := (parse (ch '/' :: s)).authority.or (parse base).authority
        path := removeDotSegments (parse (ch '/' :: s)).path } := by
  have hbase := hierarchical_parse hscheme hauthority
  obtain ⟨hquestion, hhash⟩ := not_mem_hierarchical (ch '/' :: s)
  have hpath : ∀ d, d ≠ ch '/' → d ∉ hierarchical (ch '/' :: s) →
      d ∉ removeDotSegments (parse (ch '/' :: s)).path := fun d hslash hd =>
    not_mem_removeDotSegments hslash fun hmem =>
      hd (mem_of_mem_withoutScheme (mem_of_mem_pathOf hmem))
  rw [resolve, transform_of_slash]
  refine parse_recompose ⟨hbase.scheme, ?_, ?_, hpath _ (by decide) hquestion,
    hpath _ (by decide) hhash, fun q hq => hash_not_mem_query hq⟩
  · cases ha : (parse (ch '/' :: s)).authority with
    | none => exact hbase.authority
    | some a =>
      obtain ⟨rest, -, hupTo, -⟩ := authority_eq ha
      have hauth : ∀ d, d ∉ hierarchical (ch '/' :: s) → d ∉ a := fun d hd hmem =>
        hd (mem_of_mem_withoutScheme (mem_of_mem_authorityOf ha hmem))
      exact ⟨a, rfl, hupTo ▸ not_mem_upTo _ _, hauth _ hquestion, hauth _ hhash⟩
  · exact absolutePath_removeDotsFrom _ (absolutePath_parse_of_slash s) (Or.inl rfl)

end Slash

/-! ### Without the fragment -/

/-- A reference with another fragment. -/
def Reference.withFragment (r : Reference) (fragment : Option (List UInt8)) : Reference :=
  { r with fragment }

section WithFragment

variable (r : Reference) (fragment : Option (List UInt8))

@[simp] lemma Reference.withFragment_scheme : (r.withFragment fragment).scheme = r.scheme := rfl

@[simp] lemma Reference.withFragment_authority :
    (r.withFragment fragment).authority = r.authority := rfl

@[simp] lemma Reference.withFragment_path : (r.withFragment fragment).path = r.path := rfl

@[simp] lemma Reference.withFragment_query : (r.withFragment fragment).query = r.query := rfl

end WithFragment

/-- What stands in front of the fragment says everything else. -/
lemma parse_congr {s s' : List UInt8} (h : upTo (ch '#') s = upTo (ch '#') s') :
    parse s = (parse s').withFragment (parse s).fragment := by
  simp only [Reference.withFragment, parse, hierarchical, h]

lemma recompose_withFragment_none (s : List UInt8) :
    recompose ((parse s).withFragment none) = upTo (ch '#') s := by
  have hparts := recompose_parse s
  rw [recompose_eq, ← List.append_assoc] at hparts
  have hsplit := upTo_append_behind (ch '#') s
  have hfront := List.append_cancel_right (hparts.trans hsplit.symm)
  rw [recompose_eq, ← hfront]
  exact congrArg (front (parse s) ++ ·) (List.append_nil _)

lemma hash_not_mem_of_fragment {s : List UInt8} (h : (parse s).fragment = none) :
    ch '#' ∉ s := by
  have hsplit := upTo_append_behind (ch '#') s
  rw [show behind (ch '#') s = none from h] at hsplit
  have hself : upTo (ch '#') s = s := by simpa [prefixed] using hsplit
  exact hself ▸ not_mem_upTo (ch '#') s

/-- URIs on one authority with one text have one path. -/
lemma path_of_recompose_eq {r r' : Reference} (h : r.Hierarchical)
    (heq : recompose r = recompose r') (hscheme : r'.scheme = r.scheme)
    (hauthority : r'.authority = r.authority) (hquestion : ch '?' ∉ r'.path)
    (hhash : ch '#' ∉ r'.path) (hquery : r'.query = r.query) : r'.path = r.path := by
  obtain ⟨s, hs, hsscheme⟩ := h.scheme
  obtain ⟨a, ha, -, haquestion, hahash⟩ := h.authority
  obtain ⟨-, hsquestion, hshash⟩ := not_mem_of_isScheme hsscheme
  have hs' := hscheme.trans hs
  have ha' := hauthority.trans ha
  have hfront := (upTo_recompose
    (not_mem_front_of_parts hs ha hsquestion haquestion h.path_query (by decide) (by decide))
    (not_mem_front_of_parts hs ha hshash hahash h.path_fragment (by decide) (by decide))
    h.query).2.1
  have hfront' := (upTo_recompose
    (not_mem_front_of_parts hs' ha' hsquestion haquestion hquestion (by decide) (by decide))
    (not_mem_front_of_parts hs' ha' hshash hahash hhash (by decide) (by decide))
    (hquery ▸ h.query)).2.1
  have hsame := hfront.symm.trans ((congrArg hierarchical heq).trans hfront')
  rw [front_of_parts hs ha, front_of_parts hs' ha'] at hsame
  simpa using hsame.symm

end Rfc3986
