/-
Text that the C library writes: decimal numbers and the date of an HTTP header.
-/
import RedStore.CLib.CString

namespace CLib

/-- `%d` of a number that is not negative. -/
def decimal (n : ℕ) : List UInt8 := (Nat.toDigits 10 n).map ch

/-- `%d`. -/
def decimalInt (n : ℤ) : List UInt8 :=
  if n < 0 then ch '-' :: decimal n.natAbs else decimal n.natAbs

/-- `struct tm`, as far as a date is printed from it. -/
structure Tm where
  sec : ℕ
  min : ℕ
  hour : ℕ
  mday : ℕ
  mon : Fin 12
  year : ℕ
  wday : Fin 7

/-- `%02d`. -/
def twoDigits (n : ℕ) : List UInt8 := if n < 10 then ch '0' :: decimal n else decimal n

/-- `%a` in the C locale. -/
def weekday (wday : Fin 7) : List UInt8 :=
  bytesOf ((["Sun", "Mon", "Tue", "Wed", "Thu", "Fri", "Sat"] : List String).get wday)

/-- `%b` in the C locale. -/
def monthName (mon : Fin 12) : List UInt8 :=
  bytesOf ((["Jan", "Feb", "Mar", "Apr", "May", "Jun", "Jul", "Aug", "Sep", "Oct", "Nov", "Dec"] :
    List String).get mon)

/-- `strftime` with the format `%a, %d %b %Y %H:%M:%S GMT`. -/
def rfc1123 (tm : Tm) : List UInt8 :=
  weekday tm.wday ++ bytesOf ", " ++ twoDigits tm.mday ++ bytesOf " " ++ monthName tm.mon ++
    bytesOf " " ++ decimal tm.year ++ bytesOf " " ++ twoDigits tm.hour ++ bytesOf ":" ++
    twoDigits tm.min ++ bytesOf ":" ++ twoDigits tm.sec ++ bytesOf " GMT"

/-- What `ctime` returns, without the line end. -/
def ctime (tm : Tm) : List UInt8 :=
  weekday tm.wday ++ bytesOf " " ++ monthName tm.mon ++
    -- `%3d`
    List.replicate (3 - (decimal tm.mday).length) (ch ' ') ++ decimal tm.mday ++
    bytesOf " " ++ twoDigits tm.hour ++ bytesOf ":" ++ twoDigits tm.min ++ bytesOf ":" ++
    twoDigits tm.sec ++ bytesOf " " ++ decimal tm.year

/-! ### The characters that occur -/

lemma isdigit_of_mem_decimal {n : ℕ} {c : UInt8} (h : c ∈ decimal n) : isdigit c = true := by
  obtain ⟨d, hd, rfl⟩ := List.mem_map.mp h
  have hdigit : d.isDigit = true := Nat.isDigit_of_mem_toDigits (by decide) (by decide) hd
  simp only [Char.isDigit, Bool.and_eq_true, decide_eq_true_eq] at hdigit
  have h48 : 48 ≤ d.toNat := hdigit.1
  have h57 : d.toNat ≤ 57 := hdigit.2
  simp only [isdigit, ch, Bool.and_eq_true, decide_eq_true_eq, UInt8.le_iff_toNat_le,
    UInt8.toNat_ofNat']
  constructor
  · change 48 ≤ _
    omega
  · change _ ≤ 57
    omega

lemma percent_not_mem_decimal (n : ℕ) : ch '%' ∉ decimal n := fun h =>
  absurd (isdigit_of_mem_decimal h) (by decide)

lemma percent_not_mem_twoDigits (n : ℕ) : ch '%' ∉ twoDigits n := by
  rw [twoDigits]
  split
  · rw [List.mem_cons, not_or]
    exact ⟨by decide, percent_not_mem_decimal n⟩
  · exact percent_not_mem_decimal n

lemma percent_not_mem_ctime (tm : Tm) : ch '%' ∉ ctime tm := by
  have hweekday : ∀ wday, ch '%' ∉ weekday wday := by decide
  have hmonth : ∀ mon, ch '%' ∉ monthName mon := by decide
  have hblank : ch '%' ∉ bytesOf " " := by decide
  have hcolon : ch '%' ∉ bytesOf ":" := by decide
  have hpadding : ∀ n, ch '%' ∉ List.replicate n (ch ' ') := fun n h =>
    absurd (List.eq_of_mem_replicate h) (by decide)
  simp [ctime, hweekday, hmonth, hblank, hcolon, hpadding, percent_not_mem_decimal,
    percent_not_mem_twoDigits]

lemma decimal_ne_nil (n : ℕ) : decimal n ≠ [] := by
  simp [decimal, Nat.toDigits_ne_nil]

end CLib
