/-
`headers.c`: the list of key and value pairs that holds the headers of a message and the
arguments of a request.

The linked list is a Lean list.  A value that is missing or empty is stored as NULL
(`none`), while its key still counts as existing.
-/
import RedStore.CLib.Machine

namespace RedStore.RedHttp
open CLib

/-- `struct redhttp_header_s`. -/
structure Header where
  key : CString
  value : Option CString
deriving DecidableEq

/-- `redhttp_strcasecmp`, on the bytes of the two strings. -/
def redhttpStrcasecmp : List UInt8 → List UInt8 → ℤ
  | [], [] => 0
  | [], b :: _ => - (tolower b).toNat
  | a :: _, [] => (tolower a).toNat
  | a :: s, b :: t =>
    let r : ℤ := (tolower a).toNat - (tolower b).toNat
    if r = 0 then redhttpStrcasecmp s t else r

/-- Whether `redhttp_strcasecmp` finds two strings equal. -/
def sameKey (key key' : CString) : Bool := redhttpStrcasecmp key.bytes key'.bytes == 0

/-- A value as the list stores it: `value && strlen(value) ? redhttp_strdup(value) : NULL`. -/
def storedValue (value : Option CString) : Option CString :=
  value.filter fun v => v.strlen != 0

/-- `redhttp_headers_add`. -/
def redhttpHeadersAdd (first : List Header) (key : CString) (value : Option CString) :
    Except Fault (List Header) :=
  -- assert(strlen(key) > 0)
  if key.strlen = 0 then .error .assertion
  else .ok (first ++ [⟨key, storedValue value⟩])

/-- `redhttp_headers_set`. -/
def redhttpHeadersSet (first : List Header) (key : CString) (value : Option CString) :
    Except Fault (List Header) :=
  let rec replace : List Header → Option (List Header)
    | [] => none
    | it :: rest =>
      if sameKey key it.key then some (⟨it.key, storedValue value⟩ :: rest)
      else (replace rest).map (it :: ·)
  match replace first with
  | some headers => .ok headers
  | none => redhttpHeadersAdd first key value

/-- `redhttp_headers_count`. -/
def redhttpHeadersCount (first : List Header) : ℕ := first.length

/-- `redhttp_headers_get`: the value of the first entry with the key. -/
def redhttpHeadersGet : List Header → CString → Option CString
  | [], _ => none
  | it :: rest, key => if sameKey key it.key then it.value else redhttpHeadersGet rest key

/-- `redhttp_headers_exists`. -/
def redhttpHeadersExists (first : List Header) (key : CString) : Bool :=
  first.any fun it => sameKey key it.key

/-- `redhttp_headers_get_index`. -/
def redhttpHeadersGetIndex (first : List Header) (index : ℕ) : Option (CString × Option CString) :=
  first[index]?.map fun it => (it.key, it.value)

/-- `redhttp_headers_parse_line`: the line is cut at its first colon, and what follows the
colon and any white space is the value.  A line without a colon or without a value is
skipped. -/
def redhttpHeadersParseLine (first : List Header) (input : CString) :
    Except Fault (List Header) :=
  let key := input.bytes.takeWhile (· != ch ':')
  match input.bytes.dropWhile (· != ch ':') with
  | [] => .ok first
  | _ :: ptr =>
    let value := ptr.dropWhile isspace
    if value = [] then .ok first
    else redhttpHeadersAdd first (CString.ofBytes key) (some (CString.ofBytes value))

/-- What `redhttp_headers_print` writes for one entry; `fprintf` shows a NULL value as
`(null)`. -/
def printHeader (it : Header) : List UInt8 :=
  it.key.bytes ++ bytesOf ": " ++ (it.value.elim (bytesOf "(null)") CString.bytes) ++
    bytesOf "\r\n"

/-- `redhttp_headers_print`: the bytes written to the socket. -/
def redhttpHeadersPrint (first : List Header) : List UInt8 := first.flatMap printHeader

/-! ### The operations, by what they leave behind -/

lemma redhttpHeadersAdd_of_ne {key : CString} (h : key.strlen ≠ 0) (first : List Header)
    (value : Option CString) :
    redhttpHeadersAdd first key value = .ok (first ++ [⟨key, storedValue value⟩]) := by
  rw [redhttpHeadersAdd, if_neg h]

/-- `redhttp_headers_add` aborts exactly on an empty key. -/
lemma redhttpHeadersAdd_eq_assertion_iff {first : List Header} {key : CString}
    {value : Option CString} :
    redhttpHeadersAdd first key value = .error .assertion ↔ key.strlen = 0 := by
  rw [redhttpHeadersAdd]
  split <;> simp_all

@[simp] lemma storedValue_none : storedValue none = none := rfl

lemma storedValue_of_ne {v : CString} (h : v.strlen ≠ 0) : storedValue (some v) = some v := by
  simp [storedValue, h]

lemma sameKey_self (key : CString) : sameKey key key = true := by
  have hself : ∀ s : List UInt8, redhttpStrcasecmp s s = 0 := by
    intro s
    induction s with
    | nil => rfl
    | cons c s ih => rw [redhttpStrcasecmp, Int.sub_self, if_pos rfl, ih]
  rw [sameKey, hself, beq_self_eq_true]

lemma redhttpHeadersExists_eq_true_iff {first : List Header} {key : CString} :
    redhttpHeadersExists first key = true ↔ ∃ it ∈ first, sameKey key it.key = true := by
  simp [redhttpHeadersExists]

/-- Only an existing key has a value. -/
lemma exists_of_get_eq_some {first : List Header} {key v : CString}
    (h : redhttpHeadersGet first key = some v) : redhttpHeadersExists first key = true := by
  induction first with
  | nil => simp [redhttpHeadersGet] at h
  | cons it rest ih =>
    rw [redhttpHeadersGet] at h
    split at h
    · next hit => simp [redhttpHeadersExists, hit]
    · have := ih h
      simp only [redhttpHeadersExists, List.any_cons, Bool.or_eq_true] at this ⊢
      exact Or.inr this

/-- An empty value is never stored. -/
lemma storedValue_ne_empty {value : Option CString} {v : CString}
    (h : storedValue value = some v) : v.bytes ≠ [] := by
  simp only [storedValue, Option.filter_eq_some_iff] at h
  have := h.2
  simpa [CString.strlen] using this

/-- Every value of a list is one that `redhttp_headers_add` stores. -/
def StoredValues (first : List Header) : Prop := ∀ it ∈ first, storedValue it.value = it.value

lemma storedValue_storedValue (value : Option CString) :
    storedValue (storedValue value) = storedValue value := by
  simp [storedValue, Option.filter_filter]

lemma StoredValues.add {first first' : List Header} {key : CString} {value : Option CString}
    (h : StoredValues first) (hadd : redhttpHeadersAdd first key value = .ok first') :
    StoredValues first' := by
  rw [redhttpHeadersAdd] at hadd
  split at hadd
  · cases hadd
  · obtain rfl := Except.ok.inj hadd
    intro it hit
    rcases List.mem_append.mp hit with hit | hit
    · exact h it hit
    · rw [List.mem_singleton.mp hit]
      exact storedValue_storedValue value

/-- What is found in such a list is not empty. -/
lemma StoredValues.get_ne {first : List Header} (h : StoredValues first) {key v : CString}
    (hget : redhttpHeadersGet first key = some v) : v.bytes ≠ [] := by
  induction first with
  | nil => cases hget
  | cons it rest ih =>
    rw [redhttpHeadersGet] at hget
    split at hget
    · exact storedValue_ne_empty ((h it (by simp)).trans hget)
    · exact ih (fun it' hit' => h it' (by simp [hit'])) hget

end RedStore.RedHttp
