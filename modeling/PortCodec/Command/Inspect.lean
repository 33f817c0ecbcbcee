import PortCodec.Command.Basic
import PortCodec.Document.Json.Printer
import PortCodec.Program.Listing
import PortCodec.Text.Columns

/-!
Reports about ports: the layout of one as a table or as JSON, and the list of presets.
-/

namespace PortCodec.Command

open Document.Json (Tree)

def byteText (b : UInt8) : String := Program.paddedHex 2 b.toNat

def stepText (s : Step) : String :=
  let name := Step.codeName s.code
  match s with
  | .button offset mask char => s!"{name} {offset}/{byteText mask} " ++ Text.Quoted.byte char
  | .axis offset => s!"{name} {offset}"
  | _ => name

def storedEntries (l : Layout) : List Entry := l.index.filter Entry.isStored

def listOrNull (items : List Tree) : Tree := if items.isEmpty then .null else .list items

def controlTree (p : Port) (e : Entry) : Tree :=
  let name := controlName p e
  .object ([("controller", .number e.controller), ("control", .number e.control)] ++
    (if name = [] then [] else [("name", .text name)]) ++
    [("kind", .text e.kind.name), ("offset", .number e.offset)] ++
    (if e.mask = 0 then [] else [("mask", .number e.mask.toNat)]))

def layoutTree (c : Codec) : Tree :=
  let l := c.layout
  .object
    [("port", .text c.port.name), ("legal", .list (c.port.legalSlots.map .number)),
     ("fingerprint", .text l.shortFingerprint), ("backend", .text c.backend.name),
     ("storageSize", .number l.storageSize), ("buttonBits", .number l.buttonBits),
     ("axes", .number l.axes), ("controllers", .number l.controllers), ("stride", .number l.stride),
     ("maxText", .number l.maxTextSize),
     ("program", listOrNull (l.program.map fun s => .text (stepText s))),
     ("controls", listOrNull ((storedEntries l).map (controlTree c.port)))]

def controlRow (p : Port) (e : Entry) : Bytes :=
  let mask := if e.mask = 0 then "-" else byteText e.mask
  Bytes.ofString s!"{e.controller}\t{e.control}\t" ++ controlName p e ++
    Bytes.ofString s!"\t{e.kind.name}\t{e.offset}\t{mask}\n"

def layoutRows (c : Codec) : String :=
  let l := c.layout
  s!"legal\t{numbersText c.port.legalSlots}\n" ++
  s!"fingerprint\t{l.shortFingerprint}\n" ++
  s!"storage\t{l.storageSize} bytes ({l.buttonBits} button bits, {l.axes} axes)\n" ++
  s!"controllers\t{l.controllers} (stride {l.stride})\n" ++
  s!"max text\t{l.maxTextSize}\n" ++
  s!"backend\t{c.backend.name}\n"

def stepRows (l : Layout) : String :=
  String.join (l.program.zipIdx.map fun (s, i) =>
    Text.padLeft 3 (toString i) ++ "\t" ++ stepText s ++ "\n")

def layoutTable (c : Codec) : Bytes :=
  Bytes.ofString "port\t" ++ c.port.name ++ Bytes.ofString "\n" ++
  Bytes.ofString (layoutRows c ++ "\nCTRL\tIDX\tNAME\tKIND\tOFFSET\tMASK\n") ++
  (storedEntries c.layout).flatMap (controlRow c.port) ++
  Bytes.ofString ("\n" ++ stepRows c.layout)

def runInspect (s : Setting) (schema : String) (json : Bool) : Session Error Unit := do
  let c ← openCodec s schema
  Session.print
    (if json then Bytes.ofString (layoutTree c).toText else Text.Columns.align (layoutTable c))

def presetRow (name : String) (p : Port) : Bytes :=
  let l := Layout.plan p
  Bytes.ofString s!"preset:{name}\t" ++ p.humanName ++
    Bytes.ofString s!"\t{l.controllers}\t{l.storageSize}\t{numbersText p.legalSlots}\n"

def runPresets : Session Error Unit := do
  let rows ← Preset.names.mapM fun name => do
    let p ← Session.lift (.load name) (Port.preset name)
    return presetRow name p
  Session.print (Text.Columns.align
    (Bytes.ofString "NAME\tPORT\tCONTROLLERS\tSTORAGE\tLEGAL\n" ++ rows.flatten))

end PortCodec.Command
