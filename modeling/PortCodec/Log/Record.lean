import PortCodec.Bytes
import PortCodec.Decimal.Calendar
import PortCodec.Decimal.Digits
import PortCodec.Text.LetterCase

/-!
Log records: a level, a message, named values and a time. Levels are numbers; the named ones leave
room between them.
-/

namespace PortCodec.Log

open Decimal.Calendar (padded)

structure Level where
  number : Int
  deriving DecidableEq

namespace Level

def trace : Level := ⟨-8⟩
def debug : Level := ⟨-4⟩
def info : Level := ⟨0⟩
def warn : Level := ⟨4⟩
def error : Level := ⟨8⟩

/-- The level that a word stands for; other words are the middle one. -/
def ofName (name : String) : Level :=
  match Text.lowerCase name with
  | "trace" => trace
  | "debug" => debug
  | "warn" => warn
  | "warning" => warn
  | "error" => error
  | _ => info

def name (l : Level) : String :=
  let above (base : String) (start : Level) : String :=
    let d := l.number - start.number
    if d = 0 then base else if 0 < d then s!"{base}+{d}" else s!"{base}{d}"
  if l.number < 0 then above "DEBUG" debug
  else if l.number < 4 then above "INFO" info
  else if l.number < 8 then above "WARN" warn
  else above "ERROR" error

/-- The name that people see, where levels below `debug` have one of their own. -/
def shownName (l : Level) : String := if -8 ≤ l.number ∧ l.number < -4 then "TRACE" else l.name

end Level

inductive Value
  | nothing
  | int (n : Int)
  | bool (b : Bool)
  | text (s : Bytes)
  deriving DecidableEq

def Value.render : Value → Bytes
  | .nothing => "<nil>"
  | .int n => toString n
  | .bool b => if b then "true" else "false"
  | .text s => s

structure Attribute where
  key : String
  value : Value
  deriving DecidableEq

/-- An attribute without a key and a value counts as none. -/
def Attribute.isEmpty (a : Attribute) : Bool := a.key = "" && a.value = .nothing

structure Record where
  level : Level
  message : String
  attributes : List Attribute := []
  /-- Microseconds since 1970. -/
  time : Int := -62135596800000000
  deriving DecidableEq

/-- The first moment of year 1, which stands for no time. -/
def zeroTime : Int := -62135596800000000

def dateTime (time : Int) : String :=
  let seconds := time.fdiv 1000000
  let (year, month, day) := Decimal.Calendar.ofDays (seconds.fdiv 86400)
  let second := (seconds.fmod 86400).toNat
  let sign := if year < 0 then "-" else ""
  sign ++ padded 4 year.natAbs ++ "-" ++ padded 2 month ++ "-" ++ padded 2 day ++ "T" ++
    padded 2 (second / 3600) ++ ":" ++ padded 2 (second / 60 % 60) ++ ":" ++ padded 2 (second % 60)

def microseconds (time : Int) : Nat := (time.fmod 1000000).toNat

def fineTime (time : Int) : String := s!"{dateTime time}.{padded 6 (microseconds time)}Z"

/-- The time to a millisecond. A further digit is added and taken out again at a fixed place, which
is its own in years of four digits. -/
def coarseTime (time : Int) : String :=
  let text := s!"{dateTime time}.{padded 3 (microseconds time / 1000)}1Z"
  String.ofList (text.toList.eraseIdx 23)

end PortCodec.Log
