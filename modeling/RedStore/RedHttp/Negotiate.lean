/-
`negotiate.c`: lists of media types with a quality, and the choice between them.

Qualities are tenths, 0 to 10.  The number behind `q=` is read by `strtod`; the model
computes with the exact value of what is written where the program computes with the
`double` nearest to it.
-/
import RedStore.CLib.Machine
import Mathlib.Data.Rat.Floor

namespace RedStore.RedHttp
open CLib

/-- `struct redhttp_negotiate_s`. -/
structure Negotiate where
  type : CString
  q : ℕ
deriving DecidableEq

/-- `redhttp_negotiate_compare_types`. -/
def redhttpNegotiateCompareTypes (serverType clientType : CString) : Bool :=
  if clientType = CString.lit "*/*" then true else serverType == clientType

/-! ### Choosing -/

/-- The inner loop of `redhttp_negotiate_choose`: the score of the first client entry that
beats the best score so far. -/
def betterScore (best : ℤ) (s : Negotiate) : List Negotiate → Option ℤ
  | [] => none
  | c :: client =>
    if redhttpNegotiateCompareTypes s.type c.type && best < (s.q * c.q : ℕ) then
      some (s.q * c.q : ℕ)
    else betterScore best s client

/-- The outer loop of `redhttp_negotiate_choose`. -/
def chooseFrom (client : List Negotiate) : List Negotiate → ℤ → Option CString → Option CString
  | [], _, bestType => bestType
  | s :: server, best, bestType =>
    match betterScore best s client with
    | some score => chooseFrom client server score (some s.type)
    | none => chooseFrom client server best bestType

/-- `redhttp_negotiate_choose`. -/
def redhttpNegotiateChoose (server client : List Negotiate) : Option CString :=
  chooseFrom client server (-1) none

/-! ### Sorting -/

/-- One pass of `redhttp_negotiate_sort`: `a` moves along as long as it is in front of a
better one, else the next entry takes its place as `a`. -/
def sortPass (a : Negotiate) : List Negotiate → List Negotiate
  | [] => [a]
  | b :: rest => if a.q < b.q then b :: sortPass a rest else a :: sortPass b rest

/-- The passes of `redhttp_negotiate_sort`: each leaves one more entry at the end (`e`) in
its place. -/
def sortPasses : ℕ → List Negotiate → List Negotiate
  | n + 1, first :: rest =>
    sortPasses n (sortPass first (rest.take n) ++ rest.drop n)
  | _, list => list

/-- `redhttp_negotiate_sort`. -/
def redhttpNegotiateSort (list : List Negotiate) : List Negotiate :=
  sortPasses list.length list

/-- The trimming of `redhttp_negotiate_add`.  On an item of nothing but white space the
second loop reads in front of the item while its unsigned length wraps. -/
def trimType (type : List UInt8) : Except Fault CString :=
  let type := type.dropWhile isspace
  if type = [] then .error .outOfBounds
  else .ok (CString.ofBytes (type.rdropWhile isspace))

/-- `redhttp_negotiate_add`. -/
def redhttpNegotiateAdd (first : List Negotiate) (type : List UInt8) (q : ℕ) :
    Except Fault (List Negotiate) :=
  -- assert(type_len > 0), assert(q <= 10 && q >= 0)
  if type.length = 0 ∨ 10 < q then .error .assertion
  else do
    let type ← trimType type
    .ok (redhttpNegotiateSort (first ++ [⟨type, q⟩]))

/-! ### `strtod` -/

/-- The value of a run of digits in a base. -/
def digitsIn (base : ℕ) (value : UInt8 → ℕ) (s : List UInt8) : ℕ :=
  s.foldl (fun n c => base * n + value c) 0

def isxdigit (c : UInt8) : Bool := isdigit c || (65 ≤ c && c ≤ 70) || (97 ≤ c && c ≤ 102)

def decimalValue (c : UInt8) : ℕ := (c - 48).toNat

def hexValue (c : UInt8) : ℕ :=
  if isdigit c then (c - 48).toNat else (tolower c - 87).toNat

/-- The exponent behind the marker `e` or `p`: 0 unless the marker, an optional sign and a
digit follow. -/
def exponent (marker : Char) (s : List UInt8) : ℤ :=
  match s with
  | c :: s =>
    if tolower c = ch marker then
      let (negative, s) := match s with
        | c :: s' =>
          if c = ch '-' then (true, s') else if c = ch '+' then (false, s') else (false, s)
        | [] => (false, s)
      let n : ℤ := digitsIn 10 decimalValue (s.takeWhile isdigit)
      if negative then -n else n
    else 0
  | [] => 0

/-- A numeral: digits with a point somewhere, and an exponent.  `none` without a digit. -/
def numeral (base : ℕ) (isDigit : UInt8 → Bool) (value : UInt8 → ℕ) (scale : ℕ)
    (marker : Char) (s : List UInt8) : Option ℚ :=
  let whole := s.takeWhile isDigit
  let rest := s.dropWhile isDigit
  let (fraction, rest) := match rest with
    | c :: rest' =>
      if c = ch '.' then (rest'.takeWhile isDigit, rest'.dropWhile isDigit) else ([], rest)
    | [] => ([], rest)
  if whole = [] ∧ fraction = [] then none
  else
    let mantissa : ℚ := digitsIn base value (whole ++ fraction)
    some (mantissa / (base : ℚ) ^ fraction.length * (scale : ℚ) ^ exponent marker rest)

/-- `strtod`: the finite number at the start of a string.  `none` when nothing is
converted, and for infinities and NaN, which no comparison with 0 and 1 admits either. -/
def strtod (s : List UInt8) : Option ℚ :=
  let s := s.dropWhile isspace
  let (negative, s) := match s with
    | c :: s' => if c = ch '-' then (true, s') else if c = ch '+' then (false, s') else (false, s)
    | [] => (false, s)
  let hexadecimal := match s with
    | c :: x :: s' =>
      if c = ch '0' ∧ tolower x = ch 'x' then numeral 16 isxdigit hexValue 2 'p' s' else none
    | _ => none
  (hexadecimal.or (numeral 10 isdigit decimalValue 10 'e' s)).map fun d =>
    if negative then -d else d

/-- `redhttp_negotiate_round`, for a number that is not negative. -/
def redhttpNegotiateRound (d : ℚ) : ℕ := ⌊d + 1 / 2⌋.toNat

/-! ### Parsing -/

/-- The quality after the scan for `q=` has looked at a position; the number is read from
the string as a whole. -/
def qualityAt (s : List UInt8) (q : ℕ) : ℕ :=
  match s with
  | c :: e :: number =>
    if c = ch 'q' ∧ e = ch '=' then
      match strtod number with
      | some d => if 0 ≤ d ∧ d ≤ 1 then redhttpNegotiateRound (d * 10) else q
      | none => q
    else q
  | _ => q

/-- The scan for `q=` over the parameters of an item; `left` is the number of characters
up to the end of the item. -/
def scanQuality : ℕ → List UInt8 → ℕ → ℕ
  | left + 1, c :: s, q =>
    -- p < (ptr - 3)
    if 3 < left + 1 then scanQuality left s (qualityAt (c :: s) q) else q
  | _, _, q => q

/-- The length of an item: up to the next comma or the end. -/
def itemLength (s : List UInt8) : ℕ := (s.takeWhile (· != ch ',')).length

/-- The item at the start of a string: its type and its quality. -/
def parseItem (s : List UInt8) : List UInt8 × ℕ :=
  let item := s.takeWhile (· != ch ',')
  let type := item.takeWhile (· != ch ';')
  (type, scanQuality (item.length - type.length) (s.drop type.length) 10)

/-- The loop of `redhttp_negotiate_parse`, one round for each item. -/
def parseItems (s : List UInt8) (first : List Negotiate) : Except Fault (List Negotiate) := do
  let (type, q) := parseItem s
  let first ← redhttpNegotiateAdd first type q
  match _h : s.drop (itemLength s) with
  | [] => .ok first
  | _ :: rest => parseItems rest first
termination_by s.length
decreasing_by
  have := congrArg List.length _h
  simp only [List.length_drop, List.length_cons] at this
  omega

lemma parseItems_of_ok {s : List UInt8} {first first' : List Negotiate}
    (h : redhttpNegotiateAdd first (parseItem s).1 (parseItem s).2 = .ok first') :
    parseItems s first = match s.drop (itemLength s) with
      | [] => .ok first'
      | _ :: rest => parseItems rest first' := by
  rw [parseItems]
  simp only [h, bind, Except.bind]
  split
  · next hd => rw [hd]
  · next hd => rw [hd]

/-- A header whose first item cannot be added cannot be parsed. -/
lemma parseItems_of_error {s : List UInt8} {first : List Negotiate} {e : Fault}
    (h : redhttpNegotiateAdd first (parseItem s).1 (parseItem s).2 = .error e) :
    parseItems s first = .error e := by
  rw [parseItems]
  simp only [h, bind, Except.bind]

/-- `redhttp_negotiate_parse`. -/
def redhttpNegotiateParse (str : Option CString) : Except Fault (List Negotiate) :=
  match str with
  | none => .ok []
  | some str => if str.bytes = [] then .ok [] else parseItems str.bytes []

end RedStore.RedHttp
