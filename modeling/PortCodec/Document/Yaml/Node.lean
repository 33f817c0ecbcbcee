import PortCodec.Document.Yaml.Token.Lexer

/-!
The tree of a document as it is written: tags and anchors are kept, aliases point to what they name.
-/

namespace PortCodec.Document.Yaml

inductive Node
  | scalar (tag : String) (text : String) (style : Style)
  | sequence (tag : String) (items : List Node)
  | mapping (tag : String) (fields : List (Node × Node))
  /-- Another node again, by the number of its anchor. -/
  | reference (name : String) (target : Nat)

namespace Node

/-- Whether two nodes cannot both be keys of a mapping. -/
def clashes : Node → Node → Bool
  | scalar _ a _, scalar _ b _ => a = b
  | reference a _, reference b _ => a = b
  | sequence .., sequence .. => true
  | mapping .., mapping .. => true
  | _, _ => false

end Node

/-- A document: its root, and the nodes that have an anchor. -/
structure Tree where
  root : Node
  anchored : List (Nat × Node)

structure Composer where
  lexer : Lexer
  /-- Tag handles and what they stand for. -/
  handles : List (String × String) := []
  /-- Anchor names and their numbers, the last one first. -/
  anchors : List (String × Nat) := []
  anchored : List (Nat × Node) := []

abbrev Compose := StateT Composer (Except Fault)

namespace Compose

def fail : Compose α := throw .malformed

def peek : Compose Token := do
  let (t, lexer) ← (← get).lexer.peek
  modify fun s => { s with lexer }
  return t

def skip : Compose Unit := modify fun s => { s with lexer := s.lexer.skip }

def next : Compose Symbol := do
  skip
  return (← peek).symbol

def emptyScalar : Node := .scalar "" "" .plain

def expandTag (handle suffix : String) : Compose String := do
  if handle = "" then return suffix
  match (← get).handles.find? fun h => h.1 = handle with
  | some (_, start) => if start ++ suffix = "" then fail else return start ++ suffix
  | none => fail

/-- Tags of the core set have a short form. -/
def shortTag (tag : String) : String :=
  let start := "tag:yaml.org,2002:"
  if tag.startsWith start then "!!" ++ String.ofList (tag.toList.drop start.length) else tag

/-- The anchor and tag before a node, in either order. -/
def properties : Compose (Option String × String) := do
  match (← peek).symbol with
  | .anchor name => do
    match ← next with
    | .tag handle suffix => do
      let tag ← (do skip; discard peek; expandTag handle suffix)
      return (some name, tag)
    | _ => return (some name, "")
  | .tag handle suffix => do
    match ← next with
    | .anchor name => do
      skip
      discard peek
      return (some name, ← expandTag handle suffix)
    | _ => return (none, ← expandTag handle suffix)
  | _ => return (none, "")

/-- Reads a node, which other nodes can name from its start on. -/
def anchorAs (name : Option String) (body : Compose Node) : Compose Node := do
  match name with
  | none => body
  | some name => do
    let number := (← get).anchors.length
    modify fun s => { s with anchors := (name, number) :: s.anchors }
    let n ← body
    modify fun s => { s with anchored := (number, n) :: s.anchored }
    return n

mutual

/-- A node. A block collection can start only where `block` says so, a sequence without
indentation of its own only behind a key or its colon. -/
def node (fuel : Nat) (block indentless : Bool) : Compose Node :=
  match fuel with
  | 0 => fail
  | fuel + 1 => do
    match (← peek).symbol with
    | .reference name =>
      skip
      match (← get).anchors.find? fun a => a.1 = name with
      | some (_, number) => return .reference name number
      | none => fail
    | _ =>
      let (anchor, tag) ← properties
      let tag := shortTag tag
      anchorAs anchor do
        match (← peek).symbol with
        | .scalar text style => do skip; return .scalar tag text style
        | .flowSequence => do skip; return .sequence tag (← flowItems fuel true)
        | .flowMapping => do skip; return .mapping tag (← flowFields fuel true)
        | symbol =>
          if indentless && symbol = .blockEntry then
            return .sequence tag (← indentlessItems fuel)
          else if block && symbol = .blockSequence then do
            skip
            return .sequence tag (← blockItems fuel)
          else if block && symbol = .blockMapping then do
            skip
            return .mapping tag (← blockFields fuel)
          else if anchor.isSome || tag ≠ "" then return .scalar tag "" .plain
          else fail

def blockItems (fuel : Nat) : Compose (List Node) :=
  match fuel with
  | 0 => fail
  | fuel + 1 => do
    match (← peek).symbol with
    | .blockEntry => do
      let symbol ← next
      let item ←
        if symbol = .blockEntry || symbol = .blockEnd then pure emptyScalar
        else node fuel true false
      return item :: (← blockItems fuel)
    | .blockEnd => do skip; return []
    | _ => fail

def indentlessItems (fuel : Nat) : Compose (List Node) :=
  match fuel with
  | 0 => fail
  | fuel + 1 => do
    match (← peek).symbol with
    | .blockEntry => do
      let symbol ← next
      let item ←
        if [.blockEntry, .key, .value, .blockEnd].contains symbol then pure emptyScalar
        else node fuel true false
      return item :: (← indentlessItems fuel)
    | _ => return []

def blockFields (fuel : Nat) : Compose (List (Node × Node)) :=
  match fuel with
  | 0 => fail
  | fuel + 1 => do
    match (← peek).symbol with
    | .key => do
      let symbol ← next
      let key ←
        if [.key, .value, .blockEnd].contains symbol then pure emptyScalar
        else node fuel true true
      let value ← blockValue fuel
      return (key, value) :: (← blockFields fuel)
    | .blockEnd => do skip; return []
    | _ => fail

def blockValue (fuel : Nat) : Compose Node :=
  match fuel with
  | 0 => fail
  | fuel + 1 => do
    let t ← peek
    if t.symbol = .value then
      let symbol ← next
      if [.key, .value, .blockEnd].contains symbol then return emptyScalar
      else node fuel true true
    else return emptyScalar

/-- The items of a sequence in brackets. A key among them makes a mapping of one field. -/
def flowItems (fuel : Nat) (first : Bool) : Compose (List Node) :=
  match fuel with
  | 0 => fail
  | fuel + 1 => do
    let t ← peek
    if t.symbol = .flowSequenceEnd then skip; return []
    else
      if !first then
        if t.symbol = .flowEntry then skip else fail
      let t ← peek
      if t.symbol = .key then
        skip
        let field ← flowPair fuel
        return .mapping "" [field] :: (← flowItems fuel false)
      else if t.symbol = .flowSequenceEnd then skip; return []
      else
        let item ← node fuel false false
        return item :: (← flowItems fuel false)

def flowPair (fuel : Nat) : Compose (Node × Node) :=
  match fuel with
  | 0 => fail
  | fuel + 1 => do
    let t ← peek
    let key ←
      if [.value, .flowEntry, .flowSequenceEnd].contains t.symbol then do
        skip
        pure emptyScalar
      else node fuel false false
    let t ← peek
    if t.symbol = .value then
      let symbol ← next
      if [.flowEntry, .flowSequenceEnd].contains symbol then return (key, emptyScalar)
      else return (key, ← node fuel false false)
    else return (key, emptyScalar)

def flowFields (fuel : Nat) (first : Bool) : Compose (List (Node × Node)) :=
  match fuel with
  | 0 => fail
  | fuel + 1 => do
    let t ← peek
    if t.symbol = .flowMappingEnd then skip; return []
    else
      if !first then
        if t.symbol = .flowEntry then skip else fail
      let t ← peek
      if t.symbol = .key then
        let symbol ← next
        let key ←
          if [.value, .flowEntry, .flowMappingEnd].contains symbol then
            pure emptyScalar
          else node fuel false false
        let value ← flowValue fuel
        return (key, value) :: (← flowFields fuel false)
      else if t.symbol = .flowMappingEnd then skip; return []
      else
        let key ← node fuel false false
        discard peek
        return (key, emptyScalar) :: (← flowFields fuel false)

def flowValue (fuel : Nat) : Compose Node :=
  match fuel with
  | 0 => fail
  | fuel + 1 => do
    let t ← peek
    if t.symbol = .value then
      let symbol ← next
      if [.flowEntry, .flowMappingEnd].contains symbol then return emptyScalar
      else node fuel false false
    else return emptyScalar

end

def directives : (fuel : Nat) → (version : Bool) → Compose Unit
  | 0, _ => fail
  | fuel + 1, version => do
    match (← peek).symbol with
    | .versionDirective major minor =>
      if version || major ≠ 1 || minor ≠ 1 then fail
      skip
      directives fuel true
    | .tagDirective handle start =>
      if (← get).handles.any fun h => h.1 = handle then fail
      modify fun s => { s with handles := s.handles ++ [(handle, start)] }
      skip
      directives fuel version
    | _ =>
      let known := (← get).handles
      let more := [("!", "!"), ("!!", "tag:yaml.org,2002:")].filter fun h =>
        !(known.any fun k => k.1 = h.1)
      modify fun s => { s with handles := known ++ more }

def document (fuel : Nat) : Compose (Option Node) := do
  skipStart
  match (← peek).symbol with
  | .streamEnd => return none
  | .versionDirective .. | .tagDirective .. | .documentStart => do
    directives fuel false
    if (← peek).symbol ≠ .documentStart then fail
    skip
    let t ← peek
    let root ← match t.symbol with
      | .versionDirective .. | .tagDirective .. | .documentStart | .documentEnd | .streamEnd =>
        pure emptyScalar
      | _ => node fuel true false
    discard peek
    return some root
  | _ => do
    directives fuel false
    let root ← node fuel true false
    discard peek
    return some root
where
  skipStart : Compose Unit := do
    discard peek
    skip

end Compose

/-- Reads the first document of an input. Each level of a tree takes a character, so its length is
fuel enough. -/
def Tree.read (i : Input) : Except Fault (Option Tree) := do
  let (root, s) ← (Compose.document (4 * i.chars.length + 16)).run { lexer := .ofInput i }
  return root.map fun root => { root, anchored := s.anchored }

end PortCodec.Document.Yaml
