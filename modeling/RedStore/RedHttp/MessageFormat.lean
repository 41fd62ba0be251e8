/-
What an HTTP response is on the wire.

A status line, field lines, an empty line and a body, where the lines end in CR LF and have
neither of the two inside.  Bytes are those of one message at most, so it is from the bytes that
a client knows its status, its fields and where its body begins.
-/
import RedStore.RedHttp.PrintedHeaders

namespace RedStore.RedHttp
open CLib

/-- The end of a line. -/
def crlf : List UInt8 := [13, 10]

/-- Three digits. -/
def threeDigits (n : ℕ) : List UInt8 :=
  [n / 100 % 10, n / 10 % 10, n % 10].map fun digit => UInt8.ofNat (48 + digit)

/-- A status line, without its end. -/
def statusLine (code : ℕ) (phrase : List UInt8) : List UInt8 :=
  bytesOf "HTTP/1.0 " ++ threeDigits code ++ ch ' ' :: phrase

/-- The line of a field. -/
structure FieldLine where
  name : List UInt8
  value : List UInt8
  name_ne : name ≠ []
  name_line : ∀ c ∈ name, c ≠ ch ':' ∧ LineByte c
  value_line : ∀ c ∈ value, LineByte c

namespace FieldLine

def text (f : FieldLine) : List UInt8 := f.name ++ ch ':' :: ch ' ' :: f.value

/-- The name and the value. -/
def entry (f : FieldLine) : List UInt8 × List UInt8 := (f.name, f.value)

end FieldLine

/-- Field lines, each with its end. -/
def fieldLines (fields : List FieldLine) : List UInt8 := fields.flatMap fun f => f.text ++ crlf

/-- A response on the wire. -/
structure HttpMessage where
  code : ℕ
  phrase : List UInt8
  fields : List FieldLine
  body : List UInt8
  code_range : 100 ≤ code ∧ code < 1000
  phrase_line : ∀ c ∈ phrase, LineByte c

namespace HttpMessage

/-- The bytes of a message. -/
def bytes (m : HttpMessage) : List UInt8 :=
  statusLine m.code m.phrase ++ crlf ++ fieldLines m.fields ++ crlf ++ m.body

/-- The values of the Content-Length fields. -/
def contentLengths (m : HttpMessage) : List (List UInt8) :=
  ((m.fields.map FieldLine.entry).filter fun f =>
    decide (f.1.map tolower = bytesOf "content-length")).map Prod.snd

end HttpMessage

/-! ### Reading a message -/

section Read

/-- A line ends at the first CR. -/
lemma append_crlf_inj {s t rest rest' : List UInt8} (hs : ∀ c ∈ s, LineByte c)
    (ht : ∀ c ∈ t, LineByte c) (h : s ++ crlf ++ rest = t ++ crlf ++ rest') :
    s = t ∧ rest = rest' := by
  have hfront : ∀ {u : List UInt8} (behind : List UInt8), (∀ c ∈ u, LineByte c) →
      (u ++ crlf ++ behind).takeWhile (· != ch '\r') = u := by
    intro u behind hu
    rw [List.append_assoc, List.takeWhile_append_of_pos (by simpa using fun c hc => (hu c hc).1)]
    exact List.append_right_eq_self.mpr rfl
  have hst : s = t := by rw [← hfront rest hs, h, hfront rest' ht]
  subst hst
  exact ⟨rfl, List.append_cancel_left h⟩

lemma FieldLine.lineByte_text (f : FieldLine) : ∀ c ∈ f.text, LineByte c := by
  intro c hc
  rcases List.mem_append.mp hc with hc | hc
  · exact (f.name_line c hc).2
  · rcases List.mem_cons.mp hc with rfl | hc
    · decide
    · rcases List.mem_cons.mp hc with rfl | hc
      · decide
      · exact f.value_line c hc

/-- The name of a field ends at the first colon. -/
lemma FieldLine.entry_of_text {f g : FieldLine} (h : f.text = g.text) : f = g := by
  have hname : ∀ f : FieldLine, f.text.takeWhile (· != ch ':') = f.name := by
    intro f
    rw [text, List.takeWhile_append_of_pos (by simpa using fun c hc => (f.name_line c hc).1)]
    exact List.append_right_eq_self.mpr rfl
  obtain ⟨name, value, hne, hline, hvalue⟩ := f
  obtain ⟨name', value', hne', hline', hvalue'⟩ := g
  obtain rfl : name = name' := by
    have hfirst := hname ⟨name, value, hne, hline, hvalue⟩
    rw [h, hname] at hfirst
    exact hfirst.symm
  obtain rfl : value = value' := by simpa [text] using h
  rfl

lemma fieldLines_cons (f : FieldLine) (fields : List FieldLine) (behind : List UInt8) :
    fieldLines (f :: fields) ++ behind = f.text ++ crlf ++ (fieldLines fields ++ behind) := by
  simp [fieldLines]

/-- The field lines end at the first empty line. -/
lemma fieldLines_inj {fields fields' : List FieldLine} {body body' : List UInt8}
    (h : fieldLines fields ++ (crlf ++ body) = fieldLines fields' ++ (crlf ++ body')) :
    fields = fields' ∧ body = body' := by
  -- a field line is not the empty line
  have hfield : ∀ (f : FieldLine) (fields : List FieldLine) (body body' : List UInt8),
      fieldLines (f :: fields) ++ (crlf ++ body) ≠ [] ++ crlf ++ body' := by
    intro f fields body body' heq
    rw [fieldLines_cons] at heq
    have hnil := (append_crlf_inj f.lineByte_text (by simp) heq).1
    exact f.name_ne (List.append_eq_nil_iff.mp hnil).1
  induction fields generalizing fields' with
  | nil =>
    cases fields' with
    | nil => exact ⟨rfl, List.append_cancel_left h⟩
    | cons g fields' => exact absurd h.symm (hfield g fields' body' body)
  | cons f fields ih =>
    cases fields' with
    | nil => exact absurd h (hfield f fields body body')
    | cons g fields' =>
      rw [fieldLines_cons, fieldLines_cons] at h
      obtain ⟨hfg, hrest⟩ := append_crlf_inj f.lineByte_text g.lineByte_text h
      obtain ⟨rfl, rfl⟩ := ih hrest
      rw [FieldLine.entry_of_text hfg]
      exact ⟨rfl, rfl⟩

lemma lineByte_threeDigits (n : ℕ) : ∀ c ∈ threeDigits n, LineByte c := by
  have hdigit : ∀ d < 10, LineByte (UInt8.ofNat (48 + d)) := by decide
  intro c hc
  simp only [threeDigits, List.map_cons, List.map_nil, List.mem_cons, List.not_mem_nil,
    or_false] at hc
  rcases hc with rfl | rfl | rfl <;> exact hdigit _ (Nat.mod_lt _ (by decide))

lemma lineByte_statusLine {code : ℕ} {phrase : List UInt8} (h : ∀ c ∈ phrase, LineByte c) :
    ∀ c ∈ statusLine code phrase, LineByte c := by
  intro c hc
  rcases List.mem_append.mp hc with hc | hc
  · rcases List.mem_append.mp hc with hc | hc
    · exact forall_mem_of_all (by decide) c hc
    · exact lineByte_threeDigits code c hc
  · rcases List.mem_cons.mp hc with rfl | hc
    · decide
    · exact h c hc

/-- A status line has its code in three digits, and its phrase behind them. -/
lemma statusLine_inj {m n : ℕ} {phrase phrase' : List UInt8} (hm : m < 1000) (hn : n < 1000)
    (h : statusLine m phrase = statusLine n phrase') : m = n ∧ phrase = phrase' := by
  have hdigit : ∀ d < 10, ∀ e < 10, UInt8.ofNat (48 + d) = UInt8.ofNat (48 + e) → d = e := by
    decide
  have hmod : ∀ k : ℕ, k % 10 < 10 := fun k => Nat.mod_lt k (by decide)
  rw [statusLine, statusLine, List.append_assoc, List.append_assoc] at h
  have htail := List.append_cancel_left h
  simp only [threeDigits, List.map_cons, List.map_nil, List.cons_append, List.nil_append,
    List.cons.injEq, true_and] at htail
  obtain ⟨h100, h10, h1, rfl⟩ := htail
  have h100 := hdigit _ (hmod _) _ (hmod _) h100
  have h10 := hdigit _ (hmod _) _ (hmod _) h10
  have h1 := hdigit _ (hmod _) _ (hmod _) h1
  exact ⟨by omega, rfl⟩

/-- A message is found in its bytes: one status line, one block of fields that ends at the first
empty line, and the body behind it. -/
theorem HttpMessage.bytes_injective : Function.Injective HttpMessage.bytes := by
  intro m m' h
  obtain ⟨code, phrase, fields, body, hcode, hphrase⟩ := m
  obtain ⟨code', phrase', fields', body', hcode', hphrase'⟩ := m'
  have hlines : ∀ (s : List UInt8) (fields : List FieldLine) (body : List UInt8),
      s ++ crlf ++ fieldLines fields ++ crlf ++ body =
        s ++ crlf ++ (fieldLines fields ++ (crlf ++ body)) := by
    simp only [List.append_assoc, implies_true]
  simp only [bytes, hlines] at h
  obtain ⟨hstatus, hrest⟩ := append_crlf_inj (lineByte_statusLine hphrase)
    (lineByte_statusLine hphrase') h
  obtain ⟨rfl, rfl⟩ := statusLine_inj hcode.2 hcode'.2 hstatus
  obtain ⟨rfl, rfl⟩ := fieldLines_inj hrest
  rfl

end Read

end RedStore.RedHttp
