import PortCodec.Decimal.Numeral

/-!
Dates and times of day: which of them exist, and the days between them.
-/

namespace PortCodec.Decimal.Calendar

def isLeap (year : Nat) : Bool := year % 4 = 0 && (year % 100 ≠ 0 || year % 400 = 0)

def daysIn (year month : Nat) : Nat :=
  if month = 2 then (if isLeap year then 29 else 28)
  else if month = 4 ∨ month = 6 ∨ month = 9 ∨ month = 11 then 30
  else 31

def isDate (year month day : Nat) : Bool :=
  1 ≤ month && month ≤ 12 && 1 ≤ day && day ≤ daysIn year month

def isTime (hour minute second : Nat) : Bool := hour < 24 && minute < 60 && second < 60

/-- Offsets of a whole day or hour are let through. -/
def isOffset (hour minute : Nat) : Bool := hour ≤ 24 && minute ≤ 60

def padded (n : Nat) (v : Nat) : String :=
  let digits := toString v
  String.ofList (List.replicate (n - digits.length) '0') ++ digits

/-- The numbers in a text, with anything else as separator. -/
def numbers (cs : List Char) : List Nat :=
  let (last, all) := cs.foldl (fun (acc : List Char × List Nat) c =>
    if isDigit c then (c :: acc.1, acc.2)
    else if acc.1.isEmpty then acc
    else ([], digitsValue acc.1.reverse :: acc.2)) ([], [])
  (if last.isEmpty then all else digitsValue last.reverse :: all).reverse

/-- The year, month and day that a number of days after 1 January 1970 falls on. Years are counted
from March, so that the leap day ends one. -/
def ofDays (days : Int) : Int × Nat × Nat :=
  let shifted := days + 719468
  let era := shifted.fdiv 146097
  let day := (shifted - era * 146097).toNat
  let year := (day - day / 1460 + day / 36524 - day / 146096) / 365
  let ofYear := day - (365 * year + year / 4 - year / 100)
  let month := (5 * ofYear + 2) / 153
  let dayOfMonth := ofYear - (153 * month + 2) / 5 + 1
  let monthOfYear := if month < 10 then month + 3 else month - 9
  (year + era * 400 + if monthOfYear ≤ 2 then 1 else 0, monthOfYear, dayOfMonth)

def daysBefore (year month day : Nat) : Int :=
  let y : Int := year - 1
  let months := (List.range (month - 1)).foldr (fun m days => daysIn year (m + 1) + days) 0
  365 * y + y.fdiv 4 - y.fdiv 100 + y.fdiv 400 + months + day - 1

end PortCodec.Decimal.Calendar
