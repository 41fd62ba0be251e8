/-
Text in HTML documents.

A document is put together from fixed markup and from strings that are written into it, in the
content of an element or in the quoted value of an attribute.  A string is written in escaped
form when every character of it that would mean something at its place is replaced by a
reference; a reader then stays at that place until the string is over, finds no markup in it,
and gets the string back when it replaces the references.
-/
import RedStore.CLib.CString

namespace Markup
open CLib

/-! ### What a reader makes of a document -/

/-- A place for text: the content of an element, or a value in quotes. -/
inductive Place where
  | content
  | doubleQuoted
  | singleQuoted
deriving DecidableEq

/-- Where in a document a reader is. -/
inductive Context where
  | text (place : Place)
  | tag
deriving DecidableEq

/-- The byte that ends the text of a place. -/
def Place.stop : Place → UInt8
  | .content => ch '<'
  | .doubleQuoted => ch '"'
  | .singleQuoted => ch '\''

/-- Where a reader is behind a byte. -/
def Context.next : Context → UInt8 → Context
  | .text place, c => if c = place.stop then .tag else .text place
  | .tag, c =>
    if c = ch '>' then .text .content
    else if c = ch '"' then .text .doubleQuoted
    else if c = ch '\'' then .text .singleQuoted
    else .tag

/-- Where a reader is behind a document. -/
def Context.run (k : Context) (s : List UInt8) : Context := s.foldl Context.next k

/-- What is left of a document without its text. -/
def skeleton : Context → List UInt8 → List UInt8
  | _, [] => []
  | .text place, c :: s =>
    if c = place.stop then c :: skeleton .tag s else skeleton (.text place) s
  | .tag, c :: s => c :: skeleton (Context.next .tag c) s

/-- The references that XML predefines. -/
def references : List (UInt8 × List UInt8) :=
  [(ch '&', bytesOf "&amp;"), (ch '<', bytesOf "&lt;"), (ch '>', bytesOf "&gt;"),
    (ch '"', bytesOf "&quot;"), (ch '\'', bytesOf "&apos;")]

/-- Replace the references in a text; the number is that of the bytes to skip, which belong to
a reference that has been replaced. -/
def decodeFrom : ℕ → List UInt8 → List UInt8
  | _, [] => []
  | k + 1, _ :: s => decodeFrom k s
  | 0, c :: s =>
    match references.find? fun r => r.2.isPrefixOf (c :: s) with
    | some r => r.1 :: decodeFrom (r.2.length - 1) s
    | none => c :: decodeFrom 0 s

/-- What a reader makes of a text. -/
def decode (s : List UInt8) : List UInt8 := decodeFrom 0 s

/-- The text at a place, by what is behind the start of it. -/
def textAt (place : Place) (s : List UInt8) : List UInt8 :=
  decode (s.takeWhile fun c => c != place.stop)

lemma run_append (k : Context) (s t : List UInt8) : k.run (s ++ t) = (k.run s).run t :=
  List.foldl_append

/-- A reader is where it was behind two documents of which each leaves it there. -/
lemma run_stays {k : Context} {s t : List UInt8} (hs : k.run s = k) (ht : k.run t = k) :
    k.run (s ++ t) = k := by
  rw [run_append, hs, ht]

lemma skeleton_append (k : Context) (s t : List UInt8) :
    skeleton k (s ++ t) = skeleton k s ++ skeleton (k.run s) t := by
  induction s generalizing k with
  | nil => rfl
  | cons c s ih =>
    cases k with
    | tag => exact congrArg (c :: ·) (ih _)
    | text place =>
      rw [List.cons_append, skeleton, skeleton, Context.run, List.foldl_cons, Context.next]
      split
      · exact congrArg (c :: ·) (ih _)
      · exact ih _

/-- In a text without the byte that ends it a reader stays where it is and finds no markup. -/
lemma text_of_not_mem (place : Place) {s : List UInt8} (h : place.stop ∉ s) :
    (Context.text place).run s = .text place ∧ skeleton (.text place) s = [] := by
  induction s with
  | nil => exact ⟨rfl, rfl⟩
  | cons c s ih =>
    rw [List.mem_cons, not_or] at h
    have hc : c ≠ place.stop := fun hc => h.1 hc.symm
    obtain ⟨hrun, hskeleton⟩ := ih h.2
    rw [Context.run, List.foldl_cons, Context.next, if_neg hc, skeleton, if_neg hc]
    exact ⟨hrun, hskeleton⟩

/-! ### Escaped strings -/

/-- `t` is `s` with references for some of its bytes: for all of those that `must` names, and
for none but those that `may` names. -/
inductive Escaped (must may : UInt8 → Prop) : List UInt8 → List UInt8 → Prop where
  | nil : Escaped must may [] []
  | plain {c : UInt8} {s t : List UInt8} (hc : ¬ must c) (h : Escaped must may s t) :
    Escaped must may (c :: s) (c :: t)
  | reference {c : UInt8} {r s t : List UInt8} (hc : may c) (hr : (c, r) ∈ references)
      (h : Escaped must may s t) : Escaped must may (c :: s) (r ++ t)

section Escaped

variable {must may must' may' : UInt8 → Prop} {s t : List UInt8}

lemma Escaped.mono (h : Escaped must may s t) (hmust : ∀ c ∈ s, must' c → must c)
    (hmay : ∀ c, may c → may' c) : Escaped must' may' s t := by
  induction h with
  | nil => exact .nil
  | plain hc _ ih =>
    rw [List.forall_mem_cons] at hmust
    exact .plain (fun hc' => hc (hmust.1 hc')) (ih hmust.2)
  | reference hc hr _ ih =>
    rw [List.forall_mem_cons] at hmust
    exact .reference (hmay _ hc) hr (ih hmust.2)

/-- A string is as it was, and has nothing to escape, or it has become longer. -/
lemma Escaped.eq_or_longer (h : Escaped must may s t) :
    (t = s ∧ ∀ c ∈ s, ¬ must c) ∨ s.length < t.length := by
  have hlong : ∀ r ∈ references, 1 < r.2.length := by decide
  induction h with
  | nil => exact Or.inl ⟨rfl, by simp⟩
  | plain hc _ ih =>
    rcases ih with ⟨rfl, hs⟩ | hlt
    · exact Or.inl ⟨rfl, List.forall_mem_cons.mpr ⟨hc, hs⟩⟩
    · exact Or.inr (Nat.succ_lt_succ hlt)
  | @reference c r s t hc hr _ ih =>
    have hr1 : 1 < r.length := hlong (c, r) hr
    have hle : s.length ≤ t.length := by
      rcases ih with ⟨rfl, -⟩ | hlt
      · exact le_rfl
      · exact hlt.le
    refine Or.inr ?_
    rw [List.length_append, List.length_cons]
    omega

/-- A string that is written as it is is escaped exactly when it has nothing to escape. -/
lemma escaped_self_iff (may : UInt8 → Prop) : Escaped must may s s ↔ ∀ c ∈ s, ¬ must c := by
  constructor
  · intro h
    rcases h.eq_or_longer with ⟨-, hs⟩ | hlt
    · exact hs
    · exact absurd hlt (lt_irrefl _)
  · intro h
    induction s with
    | nil => exact .nil
    | cons c s ih =>
      rw [List.forall_mem_cons] at h
      exact .plain h.1 (ih h.2)

/-- A byte that has to be escaped does not occur, unless in references. -/
lemma Escaped.not_mem (h : Escaped must may s t) {c : UInt8} (hc : must c)
    (href : ∀ r ∈ references, c ∉ r.2) : c ∉ t := by
  induction h with
  | nil => simp
  | plain hd _ ih =>
    rw [List.mem_cons, not_or]
    exact ⟨fun heq => hd (heq ▸ hc), ih⟩
  | reference _ hr _ ih =>
    rw [List.mem_append, not_or]
    exact ⟨href _ hr, ih⟩

/-- A byte that may not be escaped is still there. -/
lemma Escaped.mem (h : Escaped must may s t) {c : UInt8} (hc : ¬ may c) (hmem : c ∈ s) :
    c ∈ t := by
  induction h with
  | nil => exact hmem
  | plain _ _ ih =>
    rcases List.mem_cons.mp hmem with rfl | hmem
    · exact List.mem_cons_self
    · exact List.mem_cons_of_mem _ (ih hmem)
  | reference hd _ _ ih =>
    rcases List.mem_cons.mp hmem with rfl | hmem
    · exact absurd hd hc
    · exact List.mem_append_right _ (ih hmem)

lemma decodeFrom_skip (r s : List UInt8) : decodeFrom r.length (r ++ s) = decodeFrom 0 s := by
  induction r with
  | nil => rfl
  | cons c r ih => exact ih

/-- A reference is read as the byte that it is for. -/
lemma decode_reference {c : UInt8} {r : List UInt8} (h : (c, r) ∈ references)
    (t : List UInt8) : decode (r ++ t) = c :: decode t := by
  simp only [references, List.mem_cons, Prod.mk.injEq, List.not_mem_nil, or_false] at h
  rcases h with ⟨rfl, rfl⟩ | ⟨rfl, rfl⟩ | ⟨rfl, rfl⟩ | ⟨rfl, rfl⟩ | ⟨rfl, rfl⟩
  · exact congrArg (ch '&' :: ·) (decodeFrom_skip (bytesOf "amp;") t)
  · exact congrArg (ch '<' :: ·) (decodeFrom_skip (bytesOf "lt;") t)
  · exact congrArg (ch '>' :: ·) (decodeFrom_skip (bytesOf "gt;") t)
  · exact congrArg (ch '"' :: ·) (decodeFrom_skip (bytesOf "quot;") t)
  · exact congrArg (ch '\'' :: ·) (decodeFrom_skip (bytesOf "apos;") t)

lemma decode_plain {c : UInt8} (h : c ≠ ch '&') (t : List UInt8) :
    decode (c :: t) = c :: decode t := by
  have hnone : (references.find? fun r => r.2.isPrefixOf (c :: t)) = none := by
    rw [List.find?_eq_none]
    have hfirst : ∀ r ∈ references, r.2.head? = some (ch '&') := by decide
    intro r hr hprefix
    obtain ⟨rest, hrest⟩ := List.isPrefixOf_iff_prefix.mp hprefix
    have hhead := congrArg List.head? hrest
    rw [List.head?_append_of_ne_nil _ (by rintro hnil; simpa [hnil] using hfirst r hr),
      hfirst r hr, List.head?_cons, Option.some.injEq] at hhead
    exact h hhead.symm
  rw [decode, decodeFrom, hnone]
  rfl

/-- A string of which each `&` is escaped is read back. -/
theorem Escaped.decode (h : Escaped must may s t) (hamp : must (ch '&')) : decode t = s := by
  induction h with
  | nil => rfl
  | @plain c s t hc _ ih =>
    have hne : c ≠ ch '&' := fun heq => hc (heq ▸ hamp)
    rw [decode_plain hne, ih]
  | reference _ hr _ ih => rw [decode_reference hr, ih]

/-- What has nothing to escape can stand in front as it is. -/
lemma Escaped.append_plain (h : Escaped must may s t) {pre : List UInt8}
    (hpre : ∀ c ∈ pre, ¬ must c) : Escaped must may (pre ++ s) (pre ++ t) := by
  induction pre with
  | nil => exact h
  | cons c pre ih =>
    rw [List.forall_mem_cons] at hpre
    exact .plain hpre.1 (ih hpre.2)

/-- A byte that may not be escaped cuts both at the same place. -/
lemma Escaped.takeWhile (h : Escaped must may s t) {stop : UInt8} (hstop : ¬ may stop)
    (href : ∀ r ∈ references, stop ∉ r.2) :
    Escaped must may (s.takeWhile (· != stop)) (t.takeWhile (· != stop)) := by
  induction h with
  | nil => exact .nil
  | @plain c s t hc _ ih =>
    rw [List.takeWhile_cons, List.takeWhile_cons]
    split
    · exact .plain hc ih
    · exact .nil
  | @reference c r s t hc hr _ ih =>
    have hne : c ≠ stop := fun heq => hstop (heq ▸ hc)
    rw [takeWhile_bne_append (href _ hr), List.takeWhile_cons_of_pos (by simpa using hne)]
    exact .reference hc hr ih

/-- A reader gets a string back up to the end of its place, if that was not escaped. -/
lemma textAt_of_escaped (place : Place) (h : Escaped must may s t) (hamp : must (ch '&'))
    (hstop : ¬ may place.stop) (rest : List UInt8) :
    textAt place (t ++ place.stop :: rest) = s.takeWhile (· != place.stop) := by
  have href : ∀ r ∈ references, place.stop ∉ r.2 := by
    cases place <;> decide
  have hcut : (t ++ place.stop :: rest).takeWhile (· != place.stop) =
      t.takeWhile (· != place.stop) := by
    clear h
    induction t with
    | nil => simp
    | cons c t ih => rw [List.cons_append, List.takeWhile_cons, List.takeWhile_cons, ih]
  rw [textAt, hcut]
  exact (h.takeWhile hstop href).decode hamp

end Escaped

/-! ### Documents -/

/-- A part of a document: fixed markup, or a string and what is written for it. -/
inductive Piece where
  | markup (text : List UInt8)
  | insert (place : Place) (string written : List UInt8)

/-- The bytes that mean something at a place: what ends it, `<` and `&`. -/
def Place.Unsafe (place : Place) (c : UInt8) : Prop :=
  c = ch '<' ∨ c = ch '&' ∨ c = place.stop

instance (place : Place) : DecidablePred place.Unsafe := fun c =>
  inferInstanceAs (Decidable (c = ch '<' ∨ c = ch '&' ∨ c = place.stop))

namespace Piece

/-- What is in the document. -/
def text : Piece → List UInt8
  | markup text => text
  | insert _ _ written => written

/-- What is in the document if nothing is inserted. -/
def fixed : Piece → List UInt8
  | markup text => text
  | insert _ _ _ => []

/-- An inserted string is in escaped form. -/
def StaysText : Piece → Prop
  | markup _ => True
  | insert place string written => Escaped place.Unsafe (fun _ => True) string written

end Piece

/-- The text of a document. -/
def render (pieces : List Piece) : List UInt8 := pieces.flatMap Piece.text

/-- The document with the inserted strings removed. -/
def fixedMarkup (pieces : List Piece) : List UInt8 := pieces.flatMap Piece.fixed

/-- Every inserted string is in escaped form. -/
def StaysText (pieces : List Piece) : Prop := ∀ p ∈ pieces, p.StaysText

/-- By the fixed markup, the strings are at the places given. -/
def Placed : Context → List Piece → Prop
  | _, [] => True
  | k, .markup text :: pieces => Placed (k.run text) pieces
  | k, .insert place _ _ :: pieces => k = .text place ∧ Placed k pieces

@[simp] lemma render_append (pieces pieces' : List Piece) :
    render (pieces ++ pieces') = render pieces ++ render pieces' :=
  List.flatMap_append

@[simp] lemma render_nil : render [] = [] := rfl

@[simp] lemma render_markup (text : List UInt8) (pieces : List Piece) :
    render (.markup text :: pieces) = text ++ render pieces := rfl

@[simp] lemma render_insert (place : Place) (string written : List UInt8) (pieces : List Piece) :
    render (.insert place string written :: pieces) = written ++ render pieces := rfl

lemma fixedMarkup_append (pieces pieces' : List Piece) :
    fixedMarkup (pieces ++ pieces') = fixedMarkup pieces ++ fixedMarkup pieces' :=
  List.flatMap_append

lemma staysText_append {pieces pieces' : List Piece} :
    StaysText (pieces ++ pieces') ↔ StaysText pieces ∧ StaysText pieces' :=
  List.forall_mem_append

lemma placed_append {k : Context} {pieces pieces' : List Piece} (h : Placed k pieces)
    (h' : Placed (k.run (fixedMarkup pieces)) pieces') : Placed k (pieces ++ pieces') := by
  induction pieces generalizing k with
  | nil => exact h'
  | cons piece pieces ih =>
    cases piece with
    | markup text =>
      rw [fixedMarkup, List.flatMap_cons, run_append] at h'
      exact ih h h'
    | insert place string written => exact ⟨h.1, ih h.2 h'⟩

/-- A string in escaped form does not contain what ends its place. -/
lemma stop_not_mem {place : Place} {string written : List UInt8}
    (h : Escaped place.Unsafe (fun _ => True) string written) : place.stop ∉ written := by
  have href : ∀ r ∈ references, place.stop ∉ r.2 := by
    cases place <;> decide
  exact h.not_mem (Or.inr (Or.inr rfl)) href

/-- Strings in escaped form leave the markup as it is without them. -/
theorem skeleton_render {k : Context} {pieces : List Piece} (hplaced : Placed k pieces)
    (h : StaysText pieces) : skeleton k (render pieces) = skeleton k (fixedMarkup pieces) := by
  induction pieces generalizing k with
  | nil => rfl
  | cons piece pieces ih =>
    obtain ⟨hpiece, hpieces⟩ := List.forall_mem_cons.mp h
    cases piece with
    | markup text =>
      show skeleton k (text ++ render pieces) = skeleton k (text ++ fixedMarkup pieces)
      rw [skeleton_append, skeleton_append, ih hplaced hpieces]
    | insert place string written =>
      obtain ⟨rfl, hplaced'⟩ := hplaced
      obtain ⟨hrun, hskeleton⟩ := text_of_not_mem _ (stop_not_mem hpiece)
      show skeleton (.text place) (written ++ render pieces) =
        skeleton (.text place) (fixedMarkup pieces)
      rw [skeleton_append, hrun, hskeleton, List.nil_append]
      exact ih hplaced' hpieces

/-- The inserted strings are in escaped form, and the markup is the one that is left when they
are removed. -/
def KeepsMarkup (pieces : List Piece) : Prop :=
  StaysText pieces ∧ skeleton (.text .content) (render pieces) =
    skeleton (.text .content) (fixedMarkup pieces)

lemma keepsMarkup_iff {pieces : List Piece} (h : Placed (.text .content) pieces) :
    KeepsMarkup pieces ↔ StaysText pieces :=
  ⟨And.left, fun hstays => ⟨hstays, skeleton_render h hstays⟩⟩

end Markup
