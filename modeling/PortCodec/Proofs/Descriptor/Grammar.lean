import Mathlib.Data.Rat.Cast.Order
import PortCodec.Port.Descriptor
import PortCodec.Proofs.Utf8

/-! The grammar of descriptors, said of a document's tree without an order of reading and without
paths: which keys an object has, which of them may be left out, and what their values are. -/

namespace PortCodec.Descriptor

open Document (Value)
open Text.Utf8 (Begins)

/-- A number stands for an integer, whatever form it was delivered in. -/
inductive Denotes : Value → ℤ → Prop
  | int (n : Int64) : Denotes (.number (.int n)) n.toInt
  | signed (n : Int64) : Denotes (.number (.signed n)) n.toInt
  | unsigned (n : UInt64) : Denotes (.number (.unsigned n)) n.toNat
  | float {negative : Bool} {m : ℕ} {q n : ℤ}
      (h : (n : ℚ) = (if negative then -1 else 1) * m * 2 ^ q) :
      Denotes (.number (.float (.finite negative m q))) n

inductive IsText : Value → Prop
  | intro (s : Bytes) : IsText (.string s)

inductive IsFlag : Value → Prop
  | intro (b : Bool) : IsFlag (.bool b)

inductive Lists : Value → List Value → Prop
  | list (vs : List Value) : Lists (.list vs) vs
  | records (rs : List Fields) : Lists (.records rs) (rs.map .object)

def IsListOf (P : Value → Prop) (v : Value) : Prop := ∃ vs, Lists v vs ∧ ∀ w ∈ vs, P w

def Required (fields : Fields) (name : String) (P : Value → Prop) : Prop :=
  ∃ v, Document.lookup fields name = some v ∧ P v

def Optional (fields : Fields) (name : String) (P : Value → Prop) : Prop :=
  ∀ v, Document.lookup fields name = some v → P v

def OnlyKeys (known : List String) (fields : Fields) : Prop :=
  ∀ field ∈ fields, ∃ name ∈ known, Bytes.ofString name = field.1

def typeNames : List (String × Kind) :=
  [("null", .null), ("button", .button), ("axis", .axis), ("raxis", .reverseAxis),
    ("reverse-axis", .reverseAxis),
    ("taxis", .triggerAxis), ("trigger-axis", .triggerAxis), ("lightgun", .lightgunAxis),
    ("lightgun-axis", .lightgunAxis)]

def IsScalarValue (n : ℤ) : Prop := 0 ≤ n ∧ n < 0xd800 ∨ 0xdfff < n ∧ n < 0x110000

/-- A symbol gives the number of a character: a text by the character it begins with, which is not
the mark for damage, and a number by itself. -/
inductive Symbolizes : Value → ℤ → Prop
  | text {s : Bytes} {c : Char} (hc : Begins s c) (h : c.toNat ≠ 0xfffd) :
      Symbolizes (.string s) c.toNat
  | number {v : Value} {n : ℤ} (hv : Denotes v n) (h : IsScalarValue n) : Symbolizes v n

/-- The number of the character that stands for a control: its symbol, or else the character that
its name begins with. -/
inductive StandsFor (fields : Fields) : ℤ → Prop
  | symbol {v : Value} {n : ℤ} (hv : Document.lookup fields "symbol" = some v)
      (h : Symbolizes v n) :
      StandsFor fields n
  | name {s : Bytes} {c : Char} (hv : Document.lookup fields "symbol" = none)
      (hs : Document.lookup fields "name" = some (.string s)) (hc : Begins s c) :
      StandsFor fields c.toNat

/-- The byte of a control in a movie: the given one, or else its character if that is one of
ASCII. -/
inductive MovieByte (fields : Fields) : UInt8 → Prop
  | given {b : UInt8} (h : Document.lookup fields "movie" = some (.string [b])) : MovieByte fields b
  | symbol {b : UInt8} (hm : Optional fields "movie" (· = .string [])) (hb : b.toNat < 128)
      (h : StandsFor fields b.toNat) : MovieByte fields b

/-- A printable byte other than the space, the point and the bar. -/
def Printable (b : UInt8) : Prop := 32 < b.toNat ∧ b.toNat < 127 ∧ b.toNat ≠ 46 ∧ b.toNat ≠ 124

/-- A limit of an axis, in sixteen bits; one that is left out is as far away as can be. -/
def Limit (fields : Fields) (name : String) (default n : ℤ) : Prop :=
  Document.lookup fields name = none ∧ n = default ∨
    Required fields name (Denotes · n) ∧ -32768 ≤ n ∧ n ≤ 32767

structure HasRange (fields : Fields) : Prop where
  complete : Document.lookup fields "shadow" = some (.bool true) ∨
    (Document.lookup fields "min").isSome ∧ (Document.lookup fields "max").isSome
  ordered : ∃ low high, Limit fields "min" (-32768) low ∧ Limit fields "max" 32767 high ∧ low ≤ high

structure ControlGrammar (kind : Kind) (fields : Fields) : Prop where
  type : ∃ name, (name, kind) ∈ typeNames ∧
    Document.lookup fields "type" = some (.string (Bytes.ofString name))
  keys : OnlyKeys (["type", "name", "shadow", "centers", "symbol", "macro", "movie"] ++
    if kind.isAxis then ["min", "max"] else []) fields
  name : Optional fields "name" IsText
  named : kind ≠ .null → (Document.lookup fields "name").isSome
  shadow : Optional fields "shadow" IsFlag
  centers : Optional fields "centers" IsFlag
  symbol : Optional fields "symbol" fun v => ∃ n, Symbolizes v n
  macroText : Optional fields "macro" IsText
  movie : Optional fields "movie" fun v => ∃ s, v = .string s ∧ s.length ≤ 1
  range : kind.isAxis → HasRange fields
  movieByte : kind = .button → ∃ b, MovieByte fields b ∧ Printable b

def IsControl (v : Value) : Prop := ∃ fields kind, v = .object fields ∧ ControlGrammar kind fields

structure ControllerGrammar (fields : Fields) : Prop where
  keys : OnlyKeys ["class", "type", "buttons"] fields
  family : Required fields "class" IsText
  model : Required fields "type" IsText
  controls : Required fields "buttons" (IsListOf IsControl)

def IsController (v : Value) : Prop := ∃ fields, v = .object fields ∧ ControllerGrammar fields

def IsSlot (v : Value) : Prop := ∃ n, Denotes v n ∧ 0 ≤ n ∧ n ≤ 2147483647

structure PortGrammar (fields : Fields) : Prop where
  keys : OnlyKeys ["name", "hname", "symbol", "legal", "controllers"] fields
  name : Required fields "name" fun v => ∃ s, v = .string s ∧ s ≠ []
  humanName : Optional fields "hname" IsText
  symbol : Optional fields "symbol" IsText
  slots : Required fields "legal" (IsListOf IsSlot)
  controllers : Required fields "controllers" (IsListOf IsController)

def IsPort (v : Value) : Prop := ∃ fields, v = .object fields ∧ PortGrammar fields

end PortCodec.Descriptor
