import PortCodec.Decimal.Calendar

/-!
Dates and times in documents. An instant is the same all over the world; a date, a time of day and
the two together may also be left to the place where they are read.
-/

namespace PortCodec.Document

open Decimal (Calendar.isDate Calendar.isTime Calendar.isOffset Calendar.numbers Calendar.padded)

structure Date where
  year : Nat
  month : Nat
  day : Nat
  deriving DecidableEq

namespace Date

def of? (year month day : Nat) : Option Date :=
  if Calendar.isDate year month day then some ⟨year, month, day⟩ else none

def text (d : Date) : String :=
  s!"{Calendar.padded 4 d.year}-{Calendar.padded 2 d.month}-{Calendar.padded 2 d.day}"

end Date

structure Clock where
  hour : Nat := 0
  minute : Nat := 0
  second : Nat := 0
  nanosecond : Nat := 0
  deriving DecidableEq

namespace Clock

/-- The nanoseconds of a fraction's digits. Those past the ninth are dropped. -/
def nanoseconds (digits : List Char) : Nat :=
  let kept := digits.take 9
  Decimal.digitsValue kept * Nat.pow 10 (9 - kept.length)

/-- The time of three numbers and the digits of a fraction, if there is one. -/
def of? (hour minute second : Nat) (fraction : List Char) : Option Clock :=
  if Calendar.isTime hour minute second then some ⟨hour, minute, second, nanoseconds fraction⟩
  else none

def wholeText (t : Clock) : String :=
  s!"{Calendar.padded 2 t.hour}:{Calendar.padded 2 t.minute}:{Calendar.padded 2 t.second}"

def text (t : Clock) : String :=
  if t.nanosecond = 0 then t.wholeText else s!"{t.wholeText}.{Calendar.padded 9 t.nanosecond}"

/-- A time without zeros at the end of its fraction. -/
def shortText (t : Clock) : String :=
  if t.nanosecond = 0 then t.wholeText
  else String.ofList (t.text.toList.reverse.dropWhile (· = '0')).reverse

end Clock

inductive Moment
  | date (d : Date)
  | time (t : Clock)
  /-- A date and a time of day at an unknown place. -/
  | civil (d : Date) (t : Clock)
  /-- A date and a time of day where clocks are `offset` minutes ahead. -/
  | instant (d : Date) (t : Clock) (offset : Int)
  deriving DecidableEq

def offset? (negative : Bool) (hour minute : Nat) : Option Int :=
  if Calendar.isOffset hour minute then
    some (if negative then -((hour * 60 + minute : Nat) : Int) else (hour * 60 + minute : Nat))
  else none

namespace Moment

def kindName : Moment → String
  | .date _ => "toml.LocalDate"
  | .time _ => "toml.LocalTime"
  | .civil .. => "toml.LocalDateTime"
  | .instant .. => "time.Time"

def offsetText (offset : Int) : String :=
  let n := offset.natAbs
  let sign := if offset < 0 then "-" else "+"
  if n = 0 then "Z" else s!"{sign}{Calendar.padded 2 (n / 60)}:{Calendar.padded 2 (n % 60)}"

/-- The text of a moment. Offsets of a day or more have none. -/
def text? : Moment → Option String
  | .date d => some d.text
  | .time t => some t.text
  | .civil d t => some s!"{d.text}T{t.text}"
  | .instant d t offset =>
    if offset.natAbs < 24 * 60 then some s!"{d.text}T{t.shortText}{offsetText offset}" else none

end Moment
end PortCodec.Document
