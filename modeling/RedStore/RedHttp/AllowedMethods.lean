/-
The methods in an Allow header.

`check_allowed_responses` goes over the table for the handlers of exactly one path and keeps
their methods, each once and HEAD behind GET, in an array of fifty whose first entry is
OPTIONS.  It then joins them with commas in a buffer of `BUFSIZ` bytes, leaving out what does
not fit.
-/
import RedStore.RedHttp.Server

namespace RedStore.RedHttp
open CLib

variable {A : Type}

/-! ### The methods that are collected -/

/-- A method, with the HEAD that comes with GET. -/
def withHead (method : CString) : List CString :=
  if method = CString.lit "GET" then [method, CString.lit "HEAD"] else [method]

/-- The methods of the handlers for exactly one path, in the order of the table. -/
def pathMethods (handlers : List (Handler A)) (path : CString) : List CString :=
  handlers.flatMap fun it => if it.path = some path then it.method.elim [] withHead else []

/-- The methods of the handlers that are asked for: those of exactly one path, or all. -/
def selectedMethods (handlers : List (Handler A)) (path : Option CString) : List CString :=
  handlers.flatMap fun it =>
    if path = none ∨ it.path = path then it.method.elim [] withHead else []

lemma selectedMethods_some (handlers : List (Handler A)) (path : CString) :
    selectedMethods handlers (some path) = pathMethods handlers path := by
  simp only [selectedMethods, pathMethods, reduceCtorEq, false_or]

/-- What the array holds after some methods have been added: the first fifty of them that
differ. -/
def firstMethods (methods : List CString) : List CString :=
  methods.eraseDups.take maxAllowedMethods

lemma addAllowedMethod_firstMethods (methods : List CString) (method : CString) :
    (addAllowedMethod (firstMethods methods) method).1 = firstMethods (methods ++ [method]) := by
  have happend : (methods ++ [method]).eraseDups =
      methods.eraseDups ++ if method ∈ methods then [] else [method] := by
    rw [List.eraseDups_append]
    congr 1
    by_cases h : method ∈ methods <;> simp [List.removeAll, List.eraseDups_cons, h]
  rw [addAllowedMethod]
  by_cases hmem : method ∈ firstMethods methods
  · have hmethods : method ∈ methods :=
      List.mem_eraseDups.mp (List.mem_of_mem_take hmem)
    rw [if_pos hmem, firstMethods, firstMethods, happend, if_pos hmethods, List.append_nil]
  · rw [if_neg hmem]
    by_cases hroom : methods.eraseDups.length < maxAllowedMethods
    · have hall : firstMethods methods = methods.eraseDups := List.take_of_length_le hroom.le
      rw [hall] at hmem ⊢
      have hnew : method ∉ methods := fun h => hmem (List.mem_eraseDups.mpr h)
      rw [if_pos hroom, firstMethods, happend, if_neg hnew, List.take_of_length_le]
      rw [List.length_append, List.length_singleton]
      exact hroom
    · have hfull : (firstMethods methods).length = maxAllowedMethods := by
        rw [firstMethods, List.length_take]
        omega
      rw [if_neg (by omega), firstMethods, firstMethods, happend,
        List.take_append_of_le_length (by omega)]

/-- When GET cannot be added, HEAD would not be added either. -/
lemma firstMethods_of_not_added {methods : List CString}
    (hhead : CString.lit "GET" ∈ methods → CString.lit "HEAD" ∈ methods)
    (hadded : (addAllowedMethod (firstMethods methods) (CString.lit "GET")).2 = false) :
    firstMethods methods = firstMethods (methods ++ [CString.lit "GET", CString.lit "HEAD"]) := by
  rw [addAllowedMethod] at hadded
  by_cases hmem : CString.lit "GET" ∈ firstMethods methods
  · have hget : CString.lit "GET" ∈ methods :=
      List.mem_eraseDups.mp (List.mem_of_mem_take hmem)
    rw [firstMethods, firstMethods, List.eraseDups_append]
    simp [List.removeAll, hget, hhead hget]
  · rw [if_neg hmem] at hadded
    have hfull : ¬ (firstMethods methods).length < maxAllowedMethods := by
      intro hroom
      simp [hroom] at hadded
    rw [firstMethods, List.length_take] at hfull
    rw [firstMethods, firstMethods, List.eraseDups_append,
      List.take_append_of_le_length (by omega)]

/-- What a handler adds. -/
lemma collectMethod_firstMethods {methods : List CString} (path : Option CString)
    (it : Handler A) (hhead : CString.lit "GET" ∈ methods → CString.lit "HEAD" ∈ methods) :
    collectMethod path (firstMethods methods) it =
      firstMethods (methods ++
        if path = none ∨ it.path = path then it.method.elim [] withHead else []) := by
  rw [collectMethod]
  cases hmethod : it.method with
  | none => simp
  | some method =>
    have hpath : (path = none ∨ (it.path ≠ none ∧ it.path = path)) ↔
        (path = none ∨ it.path = path) := by
      cases path with
      | none => simp
      | some path =>
        constructor
        · exact Or.imp_right And.right
        · exact Or.imp_right fun h => ⟨by simp [h], h⟩
    simp only [hpath, Option.elim_some]
    by_cases hthis : path = none ∨ it.path = path
    · simp only [hthis, if_true]
      by_cases hget : method = CString.lit "GET"
      · subst hget
        have hwith : withHead (CString.lit "GET") = [CString.lit "GET", CString.lit "HEAD"] := rfl
        have hboth : methods ++ [CString.lit "GET", CString.lit "HEAD"] =
            (methods ++ [CString.lit "GET"]) ++ [CString.lit "HEAD"] := by simp
        rw [hwith]
        split
        · rw [hboth, addAllowedMethod_firstMethods, addAllowedMethod_firstMethods]
        · next hnot =>
          simp only [and_true, Bool.not_eq_true] at hnot
          have hsame : (addAllowedMethod (firstMethods methods) (CString.lit "GET")).1 =
              firstMethods methods := by
            rw [addAllowedMethod] at hnot ⊢
            split_ifs at hnot ⊢ with hmem hroom
            · rfl
            · rfl
          rw [hsame, ← firstMethods_of_not_added hhead hnot]
      · simp only [hget, and_false, if_false, withHead, addAllowedMethod_firstMethods]
    · simp [hthis]

/-- GET comes with HEAD. -/
lemma head_mem_withHead {method : CString} (h : CString.lit "GET" ∈ withHead method) :
    CString.lit "HEAD" ∈ withHead method := by
  rw [withHead] at h ⊢
  split at h
  · next hget => simp [hget]
  · next hget => exact absurd (List.mem_singleton.mp h).symm hget

/-- The methods that are collected: OPTIONS and those of the handlers that are asked for, the
first fifty that differ. -/
lemma allowedMethods_eq_selectedMethods (handlers : List (Handler A)) (path : Option CString) :
    allowedMethods handlers path =
      firstMethods (CString.lit "OPTIONS" :: selectedMethods handlers path) := by
  have hfold : ∀ (rest : List (Handler A)) (methods : List CString),
      (CString.lit "GET" ∈ methods → CString.lit "HEAD" ∈ methods) →
      rest.foldl (collectMethod path) (firstMethods methods) =
        firstMethods (methods ++ selectedMethods rest path) := by
    intro rest
    induction rest with
    | nil =>
      intro methods _
      rw [selectedMethods, List.flatMap_nil, List.append_nil, List.foldl_nil]
    | cons it rest ih =>
      intro methods hhead
      rw [List.foldl_cons, collectMethod_firstMethods path it hhead, ih, List.append_assoc]
      · rfl
      · intro hget
        rcases List.mem_append.mp hget with hget | hget
        · exact List.mem_append_left _ (hhead hget)
        · refine List.mem_append_right _ ?_
          split at hget
          · next hpath =>
            rw [if_pos hpath]
            cases hmethod : it.method with
            | none => simp [hmethod] at hget
            | some method =>
              rw [hmethod, Option.elim_some] at hget
              exact head_mem_withHead hget
          · cases hget
  have hstart : firstMethods [CString.lit "OPTIONS"] = [CString.lit "OPTIONS"] := by decide
  rw [allowedMethods_eq, ← hstart, hfold handlers [CString.lit "OPTIONS"] (by decide)]
  rfl

/-- The methods that are collected for a path. -/
theorem allowedMethods_eq_firstMethods (handlers : List (Handler A)) (path : CString) :
    allowedMethods handlers (some path) =
      firstMethods (CString.lit "OPTIONS" :: pathMethods handlers path) := by
  rw [allowedMethods_eq_selectedMethods, selectedMethods_some]

/-! ### The methods that are listed -/

/-- The methods that there is room for behind a text. -/
def roomFor : CString → List CString → List CString
  | _, [] => []
  | str, method :: rest =>
    if str.strlen + method.strlen + 2 < bufsiz then
      method :: roomFor (str ++ CString.lit "," ++ method) rest
    else roomFor str rest

/-- The methods that the Allow header for a path lists. -/
def listedMethods (handlers : List (Handler A)) (path : CString) : List CString :=
  CString.lit "OPTIONS" :: roomFor (CString.lit "OPTIONS")
    (firstMethods (CString.lit "OPTIONS" :: pathMethods handlers path)).tail

/-- What a reader of a header finds between its commas. -/
def headerItems (value : CString) : List (List UInt8) := value.bytes.splitOnP (· == ch ',')

lemma headerItems_append (str method : CString) :
    headerItems (str ++ CString.lit "," ++ method) = headerItems str ++ headerItems method := by
  have hbytes : (str ++ CString.lit "," ++ method).bytes = str.bytes ++ ch ',' :: method.bytes := by
    simp [CString.bytes_append, CString.lit, bytesOf, CString.bytes_ofBytes, ch]
  rw [headerItems, hbytes]
  exact List.splitOnP_append_cons _ _ (by decide)

lemma headerItems_foldl (rest : List CString) (str : CString) :
    headerItems (rest.foldl allowMethod str) =
      headerItems str ++ (roomFor str rest).flatMap headerItems := by
  induction rest generalizing str with
  | nil => simp [roomFor]
  | cons method rest ih =>
    rw [List.foldl_cons, ih, allowMethod, roomFor]
    split
    · rw [headerItems_append, List.flatMap_cons, List.append_assoc]
    · rfl

lemma firstMethods_options (methods : List CString) :
    firstMethods (CString.lit "OPTIONS" :: methods) =
      CString.lit "OPTIONS" :: (firstMethods (CString.lit "OPTIONS" :: methods)).tail := by
  rw [firstMethods, List.eraseDups_cons]
  rfl

/-- The items of the Allow header. -/
lemma headerItems_allowString_selected (handlers : List (Handler A)) (path : Option CString) :
    headerItems (allowString (allowedMethods handlers path)) =
      (CString.lit "OPTIONS" :: roomFor (CString.lit "OPTIONS")
        (firstMethods (CString.lit "OPTIONS" :: selectedMethods handlers path)).tail).flatMap
          headerItems := by
  rw [allowedMethods_eq_selectedMethods, firstMethods_options, allowString_cons,
    headerItems_foldl, List.flatMap_cons, List.tail_cons]

/-- The items of the Allow header for a path. -/
theorem headerItems_allowString (handlers : List (Handler A)) (path : CString) :
    headerItems (allowString (allowedMethods handlers (some path))) =
      (listedMethods handlers path).flatMap headerItems := by
  rw [headerItems_allowString_selected, selectedMethods_some, listedMethods]

/-- With room for all of its methods, a path has them all listed. -/
lemma roomFor_of_fits {str : CString} {methods : List CString}
    (h : str.strlen + (methods.map fun method => method.strlen + 1).sum + 1 < bufsiz) :
    roomFor str methods = methods := by
  induction methods generalizing str with
  | nil => rfl
  | cons method methods ih =>
    rw [List.map_cons, List.sum_cons] at h
    rw [roomFor, if_pos (by omega), ih]
    have hlen : (str ++ CString.lit "," ++ method).strlen = str.strlen + 1 + method.strlen := by
      simp [CString.strlen, CString.bytes_append, CString.lit, bytesOf, CString.bytes_ofBytes, ch]
      omega
    omega

/-- In a table that has few methods for a path, those listed are OPTIONS and its methods. -/
theorem mem_listedMethods_iff {handlers : List (Handler A)} {path : CString}
    (hfew : (CString.lit "OPTIONS" :: pathMethods handlers path).eraseDups.length ≤
      maxAllowedMethods)
    (hshort : (((CString.lit "OPTIONS" :: pathMethods handlers path).eraseDups).map
      fun method => method.strlen + 1).sum < bufsiz) {method : CString} :
    method ∈ listedMethods handlers path ↔
      method = CString.lit "OPTIONS" ∨ method ∈ pathMethods handlers path := by
  have hfirst : firstMethods (CString.lit "OPTIONS" :: pathMethods handlers path) =
      (CString.lit "OPTIONS" :: pathMethods handlers path).eraseDups :=
    List.take_of_length_le hfew
  rw [List.eraseDups_cons] at hfirst hshort
  rw [List.map_cons, List.sum_cons] at hshort
  rw [listedMethods, hfirst, List.tail_cons, roomFor_of_fits (by omega), ← List.eraseDups_cons,
    List.mem_eraseDups, List.mem_cons]

end RedStore.RedHttp
