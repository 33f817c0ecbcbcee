import PortCodec.Text.Utf8

/-!
A controller port: the slots it may be plugged into and its controllers, each a row of buttons,
axes and empty places. Names and other texts are byte strings.
-/

namespace PortCodec

/-- What a control is. Codes past the known ones can be held but not used. -/
inductive Kind
  | null
  | button
  | axis
  | reverseAxis
  | triggerAxis
  | lightgunAxis
  | unknown (code : UInt8)
  deriving DecidableEq

namespace Kind

def ofCode (n : UInt8) : Kind :=
  if n = 0 then .null
  else if n = 1 then .button
  else if n = 2 then .axis
  else if n = 3 then .reverseAxis
  else if n = 4 then .triggerAxis
  else if n = 5 then .lightgunAxis
  else .unknown n

def code : Kind → UInt8
  | .null => 0
  | .button => 1
  | .axis => 2
  | .reverseAxis => 3
  | .triggerAxis => 4
  | .lightgunAxis => 5
  | .unknown n => n

def name : Kind → String
  | .null => "null"
  | .button => "button"
  | .axis => "axis"
  | .reverseAxis => "raxis"
  | .triggerAxis => "taxis"
  | .lightgunAxis => "lightgun"
  | .unknown n => s!"Kind({n.toNat})"

def isAxis : Kind → Bool
  | .axis | .reverseAxis | .triggerAxis | .lightgunAxis => true
  | _ => false

/-- Whether a control of this kind takes room in the state. -/
def isStored (k : Kind) : Bool := k = .button || k.isAxis

def ofName? : String → Option Kind
  | "null" => some .null
  | "button" => some .button
  | "axis" => some .axis
  | "raxis" => some .reverseAxis
  | "reverse-axis" => some .reverseAxis
  | "taxis" => some .triggerAxis
  | "trigger-axis" => some .triggerAxis
  | "lightgun" => some .lightgunAxis
  | "lightgun-axis" => some .lightgunAxis
  | _ => none

theorem isStored_iff (k : Kind) : k.isStored = true ↔ k = .button ∨ k.isAxis = true := by
  cases k <;> simp [isStored, isAxis]

end Kind

/-- The text of a code point given by number; numbers that are none show the replacement mark. -/
def codePointText (n : Int) : String :=
  if 0 ≤ n ∧ n.toNat.isValidChar then String.singleton (Char.ofNat n.toNat)
  else String.singleton Text.Utf8.replacement

/-- The number of a text's first character; the replacement mark if there is none. -/
def firstCodePoint (s : Bytes) : Int :=
  match Text.Utf8.chars s with
  | [] => Text.Utf8.replacement.toNat
  | c :: _ => c.toNat

structure Control where
  name : Bytes := []
  kind : Kind := .null
  /-- The code point shown for the control. -/
  symbol : Int := 0
  macroText : Bytes := []
  /-- The byte that stands for a held button in a line. -/
  movie : UInt8 := 0
  shadow : Bool := false
  min : Int16 := 0
  max : Int16 := 0
  centers : Bool := false
  deriving DecidableEq

namespace Control

def button (name : Bytes) (movie : UInt8) : Control :=
  { name, kind := .button, symbol := movie.toNat, macroText := codePointText movie.toNat, movie }

/-- Full axes rest in the middle of their range. -/
def axis (name : Bytes) (kind : Kind) (min max : Int16) : Control :=
  { name, kind, symbol := firstCodePoint name, macroText := codePointText (firstCodePoint name),
    min, max, centers := kind = .axis || kind = .reverseAxis }

end Control

structure Controller where
  family : Bytes
  model : Bytes
  controls : List Control
  deriving DecidableEq

structure Port where
  name : Bytes
  humanName : Bytes
  symbol : Bytes
  controllers : List Controller
  /-- The slots as they were listed; order and repetition do not matter. -/
  slots : List Int
  deriving DecidableEq

namespace Port

def isLegal (p : Port) (slot : Int) : Bool := p.slots.contains slot

def dropRepeats : List Int → List Int
  | a :: b :: rest => if a = b then dropRepeats (b :: rest) else a :: dropRepeats (b :: rest)
  | rest => rest

def legalSlots (p : Port) : List Int := dropRepeats (p.slots.mergeSort (· ≤ ·))

/-- A port that fits slot 0 holds the machine's own controls. -/
def isSystem (p : Port) : Bool := p.isLegal 0

end Port
end PortCodec
