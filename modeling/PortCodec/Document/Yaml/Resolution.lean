import PortCodec.Document.Value
import PortCodec.Document.Yaml.Node

/-!
What the text of a scalar stands for: null, a truth value, a number, a time, or a string.
-/

namespace PortCodec.Document.Yaml.Resolution

open Decimal (Binary64)

/-- What a scalar can be, with the short form of its tag. -/
inductive Meaning
  | null
  | bool
  | int
  | float
  | timestamp
  | string
  deriving DecidableEq

def Meaning.tag : Meaning → String
  | .null => "!!null"
  | .bool => "!!bool"
  | .int => "!!int"
  | .float => "!!float"
  | .timestamp => "!!timestamp"
  | .string => "!!str"

def word? (text : String) : Option (Meaning × Value) :=
  if ["", "~", "null", "Null", "NULL"].contains text then some (.null, .null)
  else if ["true", "True", "TRUE"].contains text then some (.bool, .bool true)
  else if ["false", "False", "FALSE"].contains text then some (.bool, .bool false)
  else if [".nan", ".NaN", ".NAN"].contains text then some (.float, .number (.float .nan))
  else if [".inf", ".Inf", ".INF", "+.inf", "+.Inf", "+.INF"].contains text then
    some (.float, .number (.float (.infinite false)))
  else if ["-.inf", "-.Inf", "-.INF"].contains text then
    some (.float, .number (.float (.infinite true)))
  else none

/-- Digits with the mark of their base: `0x`, `0o`, `0b`, or a zero for octal. -/
def based? : List Char → Option Nat
  | '0' :: c :: d :: ds =>
    if c = 'x' ∨ c = 'X' then Decimal.unsigned? 16 (d :: ds)
    else if c = 'o' ∨ c = 'O' then Decimal.unsigned? 8 (d :: ds)
    else if c = 'b' ∨ c = 'B' then Decimal.unsigned? 2 (d :: ds)
    else Decimal.unsigned? 8 (c :: d :: ds)
  | ['0', c] => Decimal.unsigned? 8 [c]
  | ds => Decimal.unsigned? 10 ds

/-- An integer of 64 bits. Only one without a sign may need them all. -/
def integer? (cs : List Char) : Option Number :=
  let signed (n : Int) : Option Number :=
    if -2 ^ 63 ≤ n ∧ n < 2 ^ 63 then some (.int (Int64.ofInt n)) else none
  match cs with
  | '-' :: ds => (based? ds).bind fun n => signed (-n)
  | '+' :: ds => (based? ds).bind fun n => signed n
  | ds => (based? ds).bind fun n =>
    match signed n with
    | some v => some v
    | none => if n < 2 ^ 64 then some (.unsigned (UInt64.ofNat n)) else none

/-- A fraction that a double can hold. -/
def float? (cs : List Char) : Option Number :=
  (Decimal.fraction? cs).bind fun x => if x.isInfinite then none else some (.float x)

/-- Digits behind a base mark once more, where a sign may stand between the two. -/
def marked? (cs : List Char) : Option Number :=
  let signed (negative : Bool) (base : Nat) (ds : List Char) : Option Number := do
    let n ← Decimal.signed? base ds
    let n := if negative then -n else n
    if -2 ^ 63 ≤ n ∧ n < 2 ^ 63 then some (.int (Int64.ofInt n)) else none
  match cs with
  | '0' :: 'b' :: ds => signed false 2 ds
  | '0' :: 'o' :: ds => signed false 8 ds
  | _ => none

def shortNumber? : List Char → Option (Nat × List Char)
  | a :: b :: rest =>
    if !Decimal.isDigit a then none
    else if Decimal.isDigit b then some (Decimal.digitsValue [a, b], rest)
    else some (Decimal.digitsValue [a], b :: rest)
  | [a] => if Decimal.isDigit a then some (Decimal.digitsValue [a], []) else none
  | [] => none

def afterMark? (m : Char) : List Char → Option (List Char)
  | c :: rest => if c = m then some rest else none
  | [] => none

/-- A time of day with places of a second, and what stands behind it. -/
def timeOfDay? (cs : List Char) : Option (Clock × List Char) := do
  let (h, cs) ← shortNumber? cs
  let (m, cs) ← shortNumber? (← afterMark? ':' cs)
  let (s, cs) ← shortNumber? (← afterMark? ':' cs)
  let (places, cs) := match cs with
    | p :: d :: rest =>
      if (p = '.' || p = ',') && Decimal.isDigit d then
        ((d :: rest).takeWhile Decimal.isDigit, rest.dropWhile Decimal.isDigit)
      else ([], cs)
    | cs => ([], cs)
  return (← Clock.of? h m s places, cs)

def zone? (cs : List Char) : Option Int :=
  match cs with
  | ['Z'] => some 0
  | [s, a, b, ':', c, d] =>
    if (s = '+' || s = '-') && [a, b, c, d].all Decimal.isDigit then
      offset? (s = '-') (Decimal.digitsValue [a, b]) (Decimal.digitsValue [c, d])
    else none
  | _ => none

/-- A date of four, one or two, and one or two digits, and what stands behind it. -/
def date? (cs : List Char) : Option (Date × List Char) := do
  let year := cs.takeWhile Decimal.isDigit
  if year.length ≠ 4 then none
  let (month, cs) ← shortNumber? (← afterMark? '-' (cs.drop 4))
  let (day, cs) ← shortNumber? (← afterMark? '-' cs)
  return (← Date.of? (Decimal.digitsValue year) month day, cs)

/-- A date, which starts at midnight, or a date with a time of day. -/
def timestamp? (cs : List Char) : Option Moment := do
  let (d, cs) ← date? cs
  match cs with
  | [] => return .instant d {} 0
  | c :: rest =>
    if c = 'T' || c = 't' then
      let (t, cs) ← timeOfDay? rest
      return .instant d t (← zone? cs)
    else if c = ' ' then
      let (t, cs) ← timeOfDay? (rest.dropWhile (· = ' '))
      if cs.isEmpty then return .instant d t 0 else none
    else none

def numeral? (times : Bool) (text : String) : Option (Meaning × Value) :=
  let cs := text.toList
  match if times then timestamp? cs else none with
  | some m => some (.timestamp, .moment m)
  | none =>
    let plain := cs.filter (· ≠ '_')
    match integer? plain with
    | some n => some (.int, .number n)
    | none => match float? plain with
      | some n => some (.float, .number n)
      | none => (marked? plain).map fun n => (.int, .number n)

def underscoresFit : (before : Bool) → List Char → Bool
  | _, [] => true
  | before, '_' :: rest => before && rest.head?.any Decimal.isDigit && underscoresFit false rest
  | _, c :: rest => underscoresFit (Decimal.isDigit c) rest

def pointed? (cs : List Char) : Option Number :=
  if underscoresFit false cs then float? (cs.filter (· ≠ '_')) else none

def plain (times : Bool) (text : String) : Meaning × Value :=
  match word? text with
  | some r => r
  | none =>
    let found := match text.toList with
      | c :: cs =>
        if Decimal.isDigit c || c = '+' || c = '-' then numeral? times text
        else if c = '.' then (pointed? (c :: cs)).map fun n => (.float, .number n)
        else none
      | [] => none
    found.getD (.string, .string text)

def impliedTag (text : String) (style : Style) : String :=
  if style ≠ .plain then "!!str"
  else if text = "<<" then "!!merge"
  else (plain true text).1.tag

def scalarTag (tag text : String) (style : Style) : String :=
  if tag = "" || tag = "!" then impliedTag text style else tag

def base64Value? (c : Char) : Option Nat :=
  if 'A' ≤ c ∧ c ≤ 'Z' then some (c.toNat - 65)
  else if 'a' ≤ c ∧ c ≤ 'z' then some (c.toNat - 71)
  else if '0' ≤ c ∧ c ≤ '9' then some (c.toNat + 4)
  else if c = '+' then some 62
  else if c = '/' then some 63
  else none

def base64? : List Char → Option Bytes
  | [] => some []
  | [a, b, '=', '='] => do
    let x ← base64Value? a
    let y ← base64Value? b
    return [UInt8.ofNat (4 * x + y / 16)]
  | [a, b, c, '='] => do
    let x ← base64Value? a
    let y ← base64Value? b
    let z ← base64Value? c
    return [UInt8.ofNat (4 * x + y / 16), UInt8.ofNat (y % 16 * 16 + z / 4)]
  | a :: b :: c :: d :: rest => do
    let x ← base64Value? a
    let y ← base64Value? b
    let z ← base64Value? c
    let w ← base64Value? d
    return UInt8.ofNat (4 * x + y / 16) :: UInt8.ofNat (y % 16 * 16 + z / 4) ::
      UInt8.ofNat (z % 4 * 64 + w) :: (← base64? rest)
  | _ => none

def asFloat : Number → Number
  | .int n => .float (.ofNat (n < 0) n.toInt.natAbs)
  | n => n

/-- The value of a scalar. A tag of the core set has to fit what the text says; an integer may be
tagged as a float. -/
def value (tag text : String) : Except Fault Value :=
  if tag = "!!str" then .ok (.string text)
  else if tag = "!!binary" then
    match base64? (text.toList.filter fun c => c ≠ '\n' && c ≠ '\r') with
    | some bs => .ok (.string bs)
    | none => .error .malformed
  else if [Meaning.null, .bool, .int, .float, .timestamp].any fun s => s.tag = tag then
    let (found, v) := plain (tag = "!!timestamp") text
    if found.tag = tag then .ok v
    else match tag, v with
      | "!!float", .number (.int n) => .ok (.number (asFloat (.int n)))
      | _, _ => .error (.mistagged (text ++ "\x60 as a " ++ tag))
  else .ok (.string text)

end PortCodec.Document.Yaml.Resolution
