/-
References that are one name.

Such a reference leads to a neighbour of its base: the name takes the place of what stands
behind the last slash, and dot segments in front of it are removed as if it were not there.
-/
import RedStore.Uri.Recompose

namespace Rfc3986
open CLib

lemma hierarchical_append {s : List UInt8} (hquestion : ch '?' ∉ s) (hhash : ch '#' ∉ s)
    (t : List UInt8) : hierarchical (s ++ t) = s ++ hierarchical t := by
  rw [hierarchical, upTo_append hhash, upTo_append hquestion, hierarchical]

/-- A path segment without delimiters and dots. -/
structure IsName (name : List UInt8) : Prop where
  ne_nil : name ≠ []
  plain : ∀ c ∈ name, c ∉ bytesOf ":/?#."

/-- A path from slash to slash. -/
structure IsDirectory (path : List UInt8) : Prop where
  start : path.head? = some (ch '/')
  last : path.getLast? = some (ch '/')

lemma IsName.not_mem {name : List UInt8} (h : IsName name) {c : UInt8} (hc : c ∈ bytesOf ":/?#.") :
    c ∉ name := fun hmem => h.plain c hmem hc

lemma isDirectory_root : IsDirectory (bytesOf "/") := ⟨rfl, rfl⟩

/-- A prefix that ends in a slash does not reach into a name. -/
lemma afterPrefix_append_name {name : List UInt8} (hname : IsName name) {pre : String}
    (hpre : (bytesOf pre).getLast? = some (ch '/')) (input : List UInt8) :
    afterPrefix pre (input ++ name) = (afterPrefix pre input).map (· ++ name) := by
  rw [afterPrefix, afterPrefix]
  by_cases h : bytesOf pre <+: input
  · rw [if_pos (List.isPrefixOf_iff_prefix.mpr (h.trans (List.prefix_append _ _))),
      if_pos (List.isPrefixOf_iff_prefix.mpr h), List.drop_append_of_le_length h.length_le]
    rfl
  · have hnot : ¬ bytesOf pre <+: input ++ name := by
      intro hsplit
      obtain ⟨t, ht⟩ := (List.prefix_or_prefix_of_prefix (List.prefix_append input name)
        hsplit).resolve_right h
      have htname : t <+: name := by rwa [← ht, List.prefix_append_right_inj] at hsplit
      have hne : t ≠ [] := by
        rintro rfl
        rw [List.append_nil] at ht
        exact h (ht ▸ List.prefix_rfl)
      -- the slash at its end would be in the name
      rw [← ht, List.getLast?_append_of_ne_nil _ hne] at hpre
      exact hname.not_mem (by decide) (htname.subset (List.mem_of_getLast? hpre))
    rw [if_neg (mt List.isPrefixOf_iff_prefix.mp hnot),
      if_neg (mt List.isPrefixOf_iff_prefix.mp h)]
    rfl

section Directories

variable {input name : List UInt8}

/-- Where nothing is removed, the first segment is moved. -/
lemma dotStep_of_segment (hprefixes : ∀ pre ∈ ["../", "./", "/./", "/../"],
    afterPrefix pre input = none) (hlast : input.getLast? ≠ some (ch '.'))
    (output : List UInt8) : dotStep input output =
      (input.drop (firstSegment input).length, output ++ firstSegment input) := by
  have hne : ∀ pre, (bytesOf pre).getLast? = some (ch '.') → input ≠ bytesOf pre := by
    rintro pre hpre rfl
    exact hlast hpre
  rw [dotStep, hprefixes "../" (by simp), hprefixes "./" (by simp), hprefixes "/./" (by simp),
    hprefixes "/../" (by simp)]
  dsimp only
  rw [if_neg (hne "/." rfl), if_neg (hne "/.." rfl), if_neg]
  rintro (h | h)
  · exact hne "." rfl h
  · exact hne ".." rfl h

lemma IsDirectory.ne_nil (h : IsDirectory input) : input ≠ [] := by
  rintro rfl
  cases h.last

/-- What starts with a slash at the end of a directory. -/
lemma IsDirectory.of_append (front : List UInt8) {rest : List UInt8}
    (h : IsDirectory (front ++ rest)) (hrest : rest.head? = some (ch '/')) :
    IsDirectory rest := by
  have hne : rest ≠ [] := by
    rintro rfl
    cases hrest
  exact ⟨hrest, List.getLast?_append_of_ne_nil front hne ▸ h.last⟩

/-- A directory other than the root has a segment between two slashes. -/
lemma IsDirectory.exists_segment (h : IsDirectory input) (hroot : input ≠ bytesOf "/") :
    ∃ seg rest, input = ch '/' :: (seg ++ ch '/' :: rest) ∧ ch '/' ∉ seg := by
  obtain ⟨s, rfl⟩ := List.head?_eq_some_iff.mp h.start
  have hne : s ≠ [] := by
    rintro rfl
    exact hroot rfl
  have hlast := h.last
  rw [List.getLast?_cons_of_ne_nil hne] at hlast
  obtain ⟨seg, rest, rfl, hseg⟩ := List.eq_append_cons_of_mem (List.mem_of_getLast? hlast)
  exact ⟨seg, rest, rfl, hseg⟩

/-- A path that does not start with a slash does not start a directory. -/
lemma IsDirectory.afterPrefix_eq_none (h : IsDirectory input) {pre : String}
    (hpre : (bytesOf pre).head? = some (ch '.')) : afterPrefix pre input = none := by
  rw [Option.eq_none_iff_forall_ne_some]
  intro rest hrest
  have hstart := h.start
  rw [eq_of_afterPrefix hrest, List.head?_append, hpre, Option.some_or] at hstart
  exact absurd hstart (by decide)

/-- What is left of a directory behind a prefix is one again, with the slash of the prefix. -/
lemma IsDirectory.behind_prefix (h : IsDirectory input) {pre : String} (front : String)
    {rest : List UInt8} (hpre : bytesOf pre = bytesOf front ++ bytesOf "/")
    (hrest : afterPrefix pre input = some rest) : IsDirectory (ch '/' :: rest) := by
  have hsplit := eq_of_afterPrefix hrest
  rw [hpre, List.append_assoc] at hsplit
  exact IsDirectory.of_append (bytesOf front) (hsplit ▸ h) rfl

/-- Where nothing is removed of a directory other than the root, a step moves its first segment,
and a name behind it does not matter. -/
lemma IsDirectory.dotStep_segment (h : IsDirectory input) (hroot : input ≠ bytesOf "/")
    (hprefixes : ∀ pre ∈ ["../", "./", "/./", "/../"], afterPrefix pre input = none)
    (output : List UInt8) : IsDirectory (dotStep input output).1 ∧
      (dotStep input output).1.length < input.length ∧
      ∀ name, IsName name → dotStep (input ++ name) output =
        ((dotStep input output).1 ++ name, (dotStep input output).2) := by
  have hstep := dotStep_of_segment hprefixes (by simp [h.last, ch]) output
  obtain ⟨seg, rest, rfl, hseg⟩ := h.exists_segment hroot
  have hfirst : ∀ more, firstSegment (ch '/' :: (seg ++ ch '/' :: more)) = ch '/' :: seg := by
    intro more
    rw [firstSegment, upTo_append hseg, upTo_cons_self, List.append_nil]
  have hdrop : ∀ more, (ch '/' :: (seg ++ ch '/' :: more)).drop (ch '/' :: seg).length =
      ch '/' :: more := fun more => List.drop_left' rfl
  rw [hfirst, hdrop] at hstep
  rw [hstep]
  refine ⟨IsDirectory.of_append (ch '/' :: seg) h rfl, ?_, fun name hn => ?_⟩
  · simp only [List.length_cons, List.length_append]
    omega
  have hlast : (ch '/' :: (seg ++ ch '/' :: rest) ++ name).getLast? ≠ some (ch '.') := by
    rw [List.getLast?_append_of_ne_nil _ hn.ne_nil]
    exact fun hlast => hn.not_mem (by decide) (List.mem_of_getLast? hlast)
  have hnames : ∀ pre ∈ ["../", "./", "/./", "/../"],
      afterPrefix pre (ch '/' :: (seg ++ ch '/' :: rest) ++ name) = none := by
    have hslash : ∀ pre ∈ ["../", "./", "/./", "/../"], (bytesOf pre).getLast? = some (ch '/') := by
      decide
    intro pre hpre
    rw [afterPrefix_append_name hn (hslash pre hpre), hprefixes pre hpre]
    rfl
  have hshape : ch '/' :: (seg ++ ch '/' :: rest) ++ name =
      ch '/' :: (seg ++ ch '/' :: (rest ++ name)) := by simp
  rw [dotStep_of_segment hnames hlast, hshape, hfirst, hdrop]
  rfl

/-- A step on a directory other than the root leaves a shorter directory, and a name behind it
does not matter. -/
lemma dotStep_directory (h : IsDirectory input) (hroot : input ≠ bytesOf "/")
    (output : List UInt8) : IsDirectory (dotStep input output).1 ∧
      (dotStep input output).1.length < input.length ∧
      ∀ name, IsName name → dotStep (input ++ name) output =
        ((dotStep input output).1 ++ name, (dotStep input output).2) := by
  have hname : ∀ name, IsName name → ∀ {pre : String} {found},
      (bytesOf pre).getLast? = some (ch '/') → afterPrefix pre input = found →
      afterPrefix pre (input ++ name) = found.map (· ++ name) := by
    rintro name hname pre _ hpre rfl
    exact afterPrefix_append_name hname hpre input
  have hup : afterPrefix "../" input = none := h.afterPrefix_eq_none rfl
  have hhere : afterPrefix "./" input = none := h.afterPrefix_eq_none rfl
  cases hdot : afterPrefix "/./" input with
  | some rest =>
    have hstep : dotStep input output = (ch '/' :: rest, output) := by
      rw [dotStep, hup, hhere, hdot]
    rw [hstep]
    refine ⟨h.behind_prefix "/." rfl hdot, ?_, fun name hn => ?_⟩
    · rw [eq_of_afterPrefix hdot]
      simp [bytesOf]
    · rw [dotStep, hname name hn rfl hup, hname name hn rfl hhere, hname name hn rfl hdot]
      rfl
  | none =>
    cases hdots : afterPrefix "/../" input with
    | some rest =>
      have hstep : dotStep input output = (ch '/' :: rest, dropSegment output) := by
        rw [dotStep, hup, hhere, hdot, hdots]
      rw [hstep]
      refine ⟨h.behind_prefix "/.." rfl hdots, ?_, fun name hn => ?_⟩
      · rw [eq_of_afterPrefix hdots]
        simp [bytesOf]
      · rw [dotStep, hname name hn rfl hup, hname name hn rfl hhere, hname name hn rfl hdot,
          hname name hn rfl hdots]
        rfl
    | none =>
      refine h.dotStep_segment hroot ?_ output
      simp only [List.forall_mem_cons]
      exact ⟨hup, hhere, hdot, hdots, by simp⟩

/-- Removing the dot segments of a directory leaves a directory, and a name behind it stays
there. -/
lemma removeDotsFrom_directory {n m : ℕ} (hn : (input ++ name).length ≤ n)
    (hm : input.length ≤ m) (h : IsDirectory input) (hname : IsName name)
    (output : List UInt8) :
    removeDotsFrom n (input ++ name) output = removeDotsFrom m input output ++ name ∧
      (removeDotsFrom m input output).getLast? = some (ch '/') := by
  induction m generalizing n input output with
  | zero => exact absurd (List.eq_nil_of_length_eq_zero (Nat.le_zero.mp hm)) h.ne_nil
  | succ m ih =>
    have hlength : (input ++ name).length = input.length + name.length := List.length_append
    obtain ⟨n, rfl⟩ : ∃ k, n = k + 1 :=
      ⟨n - 1, by have := List.length_pos_of_ne_nil h.ne_nil; omega⟩
    rw [removeDotsFrom, if_neg (by simp [h.ne_nil]), removeDotsFrom, if_neg h.ne_nil]
    by_cases hroot : input = bytesOf "/"
    · subst hroot
      have hdot : ch '.' ∉ bytesOf "/" ++ name := by
        simpa [bytesOf, ch] using hname.not_mem (c := ch '.') (by decide)
      have hself : upTo (ch '/') name = name := upTo_eq_self (hname.not_mem (by decide))
      have hfirst : firstSegment (bytesOf "/" ++ name) = bytesOf "/" ++ name :=
        congrArg (ch '/' :: ·) hself
      have hroot : dotStep (bytesOf "/") output = ([], output ++ bytesOf "/") :=
        dotStep_of_not_mem (by decide) output
      have hdone : ∀ k out, removeDotsFrom k [] out = out := by
        intro k out
        cases k <;> rfl
      rw [dotStep_of_not_mem hdot, hfirst, List.drop_length, hroot, hdone, hdone,
        List.append_assoc]
      exact ⟨rfl, List.getLast?_append_of_ne_nil _ (by decide)⟩
    · obtain ⟨hdirectory, hshorter, hstep⟩ := dotStep_directory h hroot output
      rw [hstep name hname]
      refine ih ?_ (by omega) hdirectory _
      rw [List.length_append]
      omega

end Directories

/-! ### Neighbours -/

/-- The directory of a path: what is in front of its last segment, without dot segments. -/
def directory (path : List UInt8) : List UInt8 :=
  if path = [] then bytesOf "/" else removeDotSegments (path.rdropWhile (· != ch '/'))

section Neighbours

variable {path name : List UInt8}

/-- The path up to its last slash. -/
lemma isDirectory_rdropWhile (h : path.head? = some (ch '/')) :
    IsDirectory (path.rdropWhile (· != ch '/')) := by
  obtain ⟨s, rfl⟩ := List.head?_eq_some_iff.mp h
  have hne : (ch '/' :: s).rdropWhile (· != ch '/') ≠ [] := by
    rw [ne_eq, List.rdropWhile_eq_nil_iff]
    exact fun hall => absurd (hall (ch '/') List.mem_cons_self) (by decide)
  refine ⟨?_, ?_⟩
  · have habsolute : AbsolutePath (ch '/' :: s) := absolutePath_cons s
    exact (habsolute.of_prefix (List.rdropWhile_prefix _ _)).resolve_left hne
  · have hlast := List.rdropWhile_last_not (· != ch '/') _ hne
    rw [List.getLast?_eq_some_getLast hne]
    simpa using hlast

lemma isDirectory_directory (h : AbsolutePath path) : IsDirectory (directory path) := by
  rw [directory]
  split
  · exact isDirectory_root
  · next hne =>
    have hdir := isDirectory_rdropWhile (h.resolve_left hne)
    have hname : IsName (bytesOf "a") := ⟨by decide, by decide +kernel⟩
    have hlast : (removeDotSegments (path.rdropWhile (· != ch '/'))).getLast? = some (ch '/') :=
      (removeDotsFrom_directory le_rfl le_rfl hdir hname []).2
    have hne' : removeDotSegments (path.rdropWhile (· != ch '/')) ≠ [] := by
      rintro hnil
      rw [hnil] at hlast
      cases hlast
    exact ⟨(absolutePath_removeDotsFrom _ (Or.inr hdir.start) (Or.inl rfl)).resolve_left hne', hlast⟩

lemma not_mem_directory {d : UInt8} (hd : d ≠ ch '/') (h : d ∉ path) : d ∉ directory path := by
  rw [directory]
  split
  · simpa [bytesOf] using hd
  · exact not_mem_removeDotSegments hd fun hmem => h ((List.rdropWhile_prefix _ _).subset hmem)

/-- A name is merged into the directory of the base. -/
lemma removeDotSegments_mergePaths {base : Reference} (hauthority : base.authority.isSome = true)
    (h : AbsolutePath base.path) (hname : IsName name) :
    removeDotSegments (mergePaths base name) = directory base.path ++ name := by
  rw [mergePaths, directory]
  by_cases hpath : base.path = []
  · rw [if_pos ⟨hauthority, hpath⟩, if_pos hpath]
    exact (removeDotsFrom_directory le_rfl (le_refl (bytesOf "/").length) isDirectory_root hname
      []).1
  · rw [if_neg (fun hempty => hpath hempty.2), if_neg hpath]
    exact (removeDotsFrom_directory le_rfl le_rfl (isDirectory_rdropWhile (h.resolve_left hpath))
      hname []).1

lemma parse_name (h : IsName name) : parse name = { path := name } := by
  have hhash : upTo (ch '#') name = name := upTo_eq_self (h.not_mem (by decide))
  have hhier : hierarchical name = name := by
    rw [hierarchical, hhash, upTo_eq_self (h.not_mem (by decide))]
  have hscheme : schemeOf name = none := by
    rw [schemeOf, behind_of_not_mem (h.not_mem (by decide))]
    rfl
  have hslash : ch '/' ∉ name := h.not_mem (by decide)
  have hwithout : withoutScheme name = name := by
    rw [withoutScheme, hscheme]
    rfl
  have hparts : authorityOf name = none ∧ Rfc3986.pathOf name = name := by
    cases name with
    | nil => exact ⟨rfl, rfl⟩
    | cons a s =>
      cases s with
      | nil => exact ⟨rfl, rfl⟩
      | cons b rest =>
        have hne : ¬ (a = ch '/' ∧ b = ch '/') := fun heq => hslash (by simp [heq.1])
        rw [authorityOf, Rfc3986.pathOf, if_neg hne, if_neg hne]
        exact ⟨rfl, rfl⟩
  rw [parse, hhier, hscheme, hwithout, hparts.1, hparts.2, hhash,
    behind_of_not_mem (h.not_mem (by decide)), behind_of_not_mem (h.not_mem (by decide))]

/-- A name leads into the directory of the base, on its authority. -/
theorem parse_resolve_name {base : List UInt8} (hscheme : (parse base).scheme.isSome = true)
    (hauthority : (parse base).authority.isSome = true) (hname : IsName name) :
    parse (resolve base name) =
      { scheme := (parse base).scheme, authority := (parse base).authority,
        path := directory (parse base).path ++ name } := by
  have hbase := hierarchical_parse hscheme hauthority
  have hdir := isDirectory_directory hbase.path
  have hhead : name.head? ≠ some (ch '/') := fun h =>
    hname.not_mem (by decide) (List.mem_of_head? h)
  have htransform : transform (parse base) { path := name } =
      { scheme := (parse base).scheme, authority := (parse base).authority,
        path := directory (parse base).path ++ name } := by
    rw [← removeDotSegments_mergePaths hauthority hbase.path hname]
    simp [transform, hname.ne_nil, hhead]
  have hpath : ∀ d ∈ bytesOf ":/?#.", d ≠ ch '/' → d ∉ (parse base).path →
      d ∉ directory (parse base).path ++ name := by
    intro d hd hslash hmem
    rw [List.mem_append, not_or]
    exact ⟨not_mem_directory hslash hmem, hname.not_mem hd⟩
  rw [resolve, parse_name hname, htransform]
  refine parse_recompose ⟨hbase.scheme, hbase.authority, Or.inr ?_,
    hpath _ (by decide) (by decide) hbase.path_query,
    hpath _ (by decide) (by decide) hbase.path_fragment, by rintro _ ⟨⟩⟩
  rw [List.head?_append, hdir.start, Option.some_or]

end Neighbours

end Rfc3986
