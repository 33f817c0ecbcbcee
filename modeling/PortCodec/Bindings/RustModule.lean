import PortCodec.Bindings.Summary

/-!
The Rust module of a port: its numbers as constants, and a type of states with a getter and a
setter for each control.
-/

namespace PortCodec.Bindings.RustModule

/-- Words of the language, which name things only in raw form. -/
def keywords : List String :=
  ["as", "break", "const", "continue", "crate", "else", "enum", "fn", "for", "if", "impl", "in",
   "let", "loop", "match", "mod", "move", "mut", "pub", "ref", "return", "self", "static", "struct",
   "super", "trait", "type", "use", "where", "while"]

def getterName (identifier : String) : String :=
  if keywords.contains identifier then "r#" ++ identifier else identifier

def setterName (identifier : String) : String := "set_" ++ identifier

/-- The name of the type. It cannot start with a digit. -/
def typeName (s : Summary) : String :=
  let name := pascalCase s.identifier
  let name := match name.toList with
    | [] => "Port"
    | c :: _ => if c.isDigit then "Port" ++ name else name
  name ++ "State"

def fileName (s : Summary) : String := s.identifier ++ "_layout.rs"

def recordText (c : NamedControl) : Bytes :=
  Bytes.ofString "\x7b" ++ c.name ++
    Bytes.ofString (s!" {c.identifier} {c.kind.name} {c.controller} {c.control} {c.offset} " ++
      s!"{c.mask.toNat} {c.bit} {c.min.toInt} {c.max.toInt}\x7d")

def commentText (c : NamedControl) : Bytes :=
  let limits := if c.isButton then "" else s!", {c.min.toInt}..={c.max.toInt}"
  Bytes.ofString s!"\n    /// {c.controller}." ++ recordText c ++ Bytes.ofString " " ++ c.name ++
    Bytes.ofString (limits ++ "\n")

def methodText (name signature body : String) : String :=
  "    pub fn " ++ name ++ "(" ++ signature ++ " \x7b\n" ++ body ++ "    \x7d\n"

def buttonText (c : NamedControl) : String :=
  let mask := "0x" ++ Bytes.hex [c.mask]
  methodText (getterName c.identifier) "&self) -> bool"
    s!"        self.0[{c.offset}] & {mask} != 0\n" ++
  "\n" ++
  methodText (setterName c.identifier) "&mut self, pressed: bool)"
    ("        if pressed \x7b\n" ++
    s!"            self.0[{c.offset}] |= {mask};\n" ++
    "        \x7d else \x7b\n" ++
    s!"            self.0[{c.offset}] &= !{mask};\n" ++
    "        \x7d\n")

def axisText (c : NamedControl) : String :=
  methodText (getterName c.identifier) "&self) -> i16"
    s!"        i16::from_le_bytes([self.0[{c.offset}], self.0[{c.offset} + 1]])\n" ++
  "\n" ++
  methodText (setterName c.identifier) "&mut self, value: i16)"
    s!"        self.0[{c.offset}..{c.offset} + 2].copy_from_slice(&value.to_le_bytes());\n"

def controlText (c : NamedControl) : Bytes :=
  commentText c ++ Bytes.ofString (if c.isButton then buttonText c else axisText c)

def opening (s : Summary) : String :=
  s!"\" (layout {s.fingerprint})\n\n" ++
  s!"pub const STORAGE_SIZE: usize = {s.storageSize};\n" ++
  s!"pub const CONTROLLERS: usize = {s.controllers};\n" ++
  s!"pub const STRIDE: usize = {s.stride};\n" ++
  s!"pub const MAX_TEXT: usize = {s.maxText};\n\n" ++
  "#[derive(Debug, Clone, Copy, PartialEq, Eq, Default)]\n" ++
  s!"pub struct {typeName s}(pub [u8; STORAGE_SIZE]);\n\n" ++
  s!"impl {typeName s} \x7b"

def text (s : Summary) : Bytes :=
  Bytes.ofString ("// Auto-generated portctrl layout module\n" ++
    "// DO NOT EDIT - generated from port \"") ++
  s.port ++
  Bytes.ofString (opening s) ++
  s.controls.flatMap controlText ++
  Bytes.ofString "\x7d\n"

end PortCodec.Bindings.RustModule
