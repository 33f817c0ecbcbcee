import PortCodec.Bindings.Summary

/-!
The C header of a port: its numbers and the place of each control as macros, and four functions
that read and write a state.
-/

namespace PortCodec.Bindings.Header

def macroStart (s : Summary) : String :=
  let upper := upperSnakeCase s.identifier
  if upper = "" then "PORT" else upper

def guardName (s : Summary) : String := macroStart s ++ "_LAYOUT_H"

def fileName (s : Summary) : String := s.identifier ++ "_layout.h"

def maskText (b : UInt8) : String := "0x" ++ Bytes.hex [b]

def controlMacros (s : Summary) (c : NamedControl) : List (String × String) :=
  let name (part : String) : String := s!"{macroStart s}_{Text.upperCase c.identifier}_{part}"
  (name "OFFSET", toString c.offset) ::
    if c.isButton then [(name "MASK", maskText c.mask)]
    else [(name "MIN", s!"({c.min.toInt})"), (name "MAX", s!"({c.max.toInt})")]

def layoutMacros (s : Summary) : List (String × String) :=
  [(macroStart s ++ "_STORAGE_SIZE", toString s.storageSize),
   (macroStart s ++ "_CONTROLLERS", toString s.controllers),
   (macroStart s ++ "_STRIDE", toString s.stride),
   (macroStart s ++ "_MAX_TEXT", toString s.maxText)]

def defineLine (m : String × String) : String := s!"#define {m.1} {m.2}\n"

def defineLines (ms : List (String × String)) : String := String.join (ms.map defineLine)

def functionNames (s : Summary) : List String :=
  ["get_button", "set_button", "get_axis", "set_axis"].map fun n => s!"{s.identifier}_{n}"

def controlText (s : Summary) (c : NamedControl) : Bytes :=
  Bytes.ofString s!"\n/* {c.controller}.{c.control} " ++ c.name ++
    Bytes.ofString (s!" ({c.kind.name}) */\n" ++ defineLines (controlMacros s c))

def getButton (name : String) : String :=
  s!"static inline int {name}(const uint8_t *state, int offset, uint8_t mask) \x7b\n" ++
  "    return (state[offset] & mask) != 0;\n" ++
  "\x7d\n"

def setButton (name : String) : String :=
  s!"static inline void {name}(uint8_t *state, int offset, uint8_t mask, int pressed) \x7b\n" ++
  "    if (pressed) \x7b\n" ++
  "        state[offset] |= mask;\n" ++
  "    \x7d else \x7b\n" ++
  "        state[offset] &= (uint8_t)~mask;\n" ++
  "    \x7d\n" ++
  "\x7d\n"

def getAxis (name : String) : String :=
  s!"static inline int16_t {name}(const uint8_t *state, int offset) \x7b\n" ++
  "    return (int16_t)(uint16_t)(state[offset] | (state[offset + 1] << 8));\n" ++
  "\x7d\n"

def setAxis (name : String) : String :=
  s!"static inline void {name}(uint8_t *state, int offset, int16_t value) \x7b\n" ++
  "    state[offset] = (uint8_t)((uint16_t)value & 0xff);\n" ++
  "    state[offset + 1] = (uint8_t)((uint16_t)value >> 8);\n" ++
  "\x7d\n"

def functionTexts (s : Summary) : String :=
  String.join (((functionNames s).zip [getButton, setButton, getAxis, setAxis]).map
    fun (name, f) => "\n" ++ f name)

def opening (s : Summary) : String :=
  s!"\" (layout {s.fingerprint})\n\n" ++
  s!"#ifndef {guardName s}\n#define {guardName s}\n\n" ++
  "#include <stdint.h>\n\n" ++
  defineLines (layoutMacros s)

def text (s : Summary) : Bytes :=
  Bytes.ofString ("// Auto-generated portctrl layout header\n" ++
    "// DO NOT EDIT - generated from port \"") ++
  s.port ++
  Bytes.ofString (opening s) ++
  s.controls.flatMap (controlText s) ++
  Bytes.ofString (functionTexts s ++ s!"\n#endif /* {guardName s} */\n")

end PortCodec.Bindings.Header
