import PortCodec.Document.Yaml.Resolution

/-!
From a YAML tree to a value. Aliases are followed, `<<` takes over the fields of other mappings,
and a key that stands twice is a fault, but only after the whole tree has been read.
-/

namespace PortCodec.Document.Yaml

/-- What has been met on the way: the number of nodes, that of nodes reached through aliases, and
whether something cannot stay. -/
structure Tally where
  nodes : Nat := 0
  aliased : Nat := 0
  failed : Bool := false

abbrev Evaluate := StateT Tally (Except Fault)

namespace Evaluate

/-- Whether too large a share of a document comes from aliases: 99 percent in small documents,
going down to 10 percent in large ones. -/
def excessive (t : Tally) : Bool :=
  100 < t.aliased && 1000 < t.nodes &&
    if t.nodes ≤ 400000 then 99 * t.nodes < 100 * t.aliased
    else if 4000000 ≤ t.nodes then t.nodes < 10 * t.aliased
    else
      (99 * 3600000 - 89 * (t.nodes - 400000)) * t.nodes < 100 * 3600000 * t.aliased

def count (aliased : Bool) : Evaluate Unit := do
  modify fun t => { t with nodes := t.nodes + 1, aliased := t.aliased + if aliased then 1 else 0 }
  if excessive (← get) then throw .malformed

/-- Notes that the document cannot be read, and goes on. -/
def fail : Evaluate Unit := modify fun t => { t with failed := true }

/-- Whether an earlier key of a mapping rules out a later one. -/
def hasRepeatedKey : List (Node × Node) → Bool
  | [] => false
  | (k, _) :: rest => rest.any (fun f => k.clashes f.1) || hasRepeatedKey rest

def isMerge : Node → Bool
  | .scalar tag text style => text = "<<" && Resolution.scalarTag tag text style = "!!merge"
  | _ => false

/-- The nodes that have an anchor, and those whose aliases are being followed. -/
structure Scope where
  anchored : List (Nat × Node)
  active : List Nat := []

def Scope.target? (s : Scope) (number : Nat) : Option Node :=
  (s.anchored.find? fun a => a.1 = number).map (·.2)

def Scope.resolve? (s : Scope) : (fuel : Nat) → Node → Option Node
  | 0, _ => none
  | fuel + 1, .reference _ number => (s.target? number).bind (s.resolve? fuel)
  | _ + 1, n => some n

def nodeTag : Node → String
  | .scalar tag text style => Resolution.scalarTag tag text style
  | .sequence tag _ => if tag = "" then "!!seq" else tag
  | .mapping tag _ => if tag = "" then "!!map" else tag
  | .reference .. => ""

def keyTag (s : Scope) (n : Node) : String :=
  ((s.resolve? (s.anchored.length + 1) n).map nodeTag).getD ""

def hasTextKeys (s : Scope) (fields : List (Node × Node)) : Bool :=
  fields.all fun f => ["!!str", "!!merge"].contains (keyTag s f.1)

def isMapping (s : Scope) : Node → Bool
  | .mapping .. => true
  | .reference _ number => match s.target? number with
    | some (.mapping ..) => true
    | _ => false
  | _ => false

def isCollection : Value → Bool
  | .list _ | .records _ | .object _ | .mapping => true
  | _ => false

/-- Whether two keys are the same. Numbers of different forms are not, and neither are times at
places of their own. -/
def sameKey : Value → Value → Bool
  | .null, .null => true
  | .bool a, .bool b => a = b
  | .number (.float .nan), _ => false
  | .number (.float (.finite _ 0 _)), .number (.float (.finite _ 0 _)) => true
  | .number a, .number b => a = b
  | .string a, .string b => a = b
  | .moment (.instant d t 0), .moment (.instant d' t' 0) => d = d' && t = t'
  | _, _ => false

/-- The name of a key in a mapping whose keys are texts: the text of a scalar, whatever it stands
for. A null is no name. -/
def keyName? (s : Scope) (n : Node) : Value → Option Bytes
  | .null => none
  | .string name => some name
  | _ => match s.resolve? (s.anchored.length + 1) n with
    | some (.scalar _ text _) => some text
    | _ => none

/-- Fields in order, with the keys that no further merge may set. -/
structure Merging where
  fields : List (Bytes × Value) := []
  settled : Option (List Value) := none

mutual

def value (fuel : Nat) (s : Scope) (n : Node) : Evaluate Value :=
  match fuel with
  | 0 => throw .malformed
  | fuel + 1 => do
    count (!s.active.isEmpty)
    match n with
    | .scalar tag text style => Resolution.value (Resolution.scalarTag tag text style) text
    | .sequence _ items => return .list (← values fuel s items)
    | .reference _ number =>
      match s.target? number with
      | some target =>
        if s.active.contains number then throw .malformed
        else value fuel { s with active := number :: s.active } target
      | none => throw .malformed
    | .mapping _ fields =>
      let textual := hasTextKeys s fields
      let m ← mapping fuel s textual {} fields
      return if textual then .object m.fields else .mapping

def values (fuel : Nat) (s : Scope) (ns : List Node) : Evaluate (List Value) :=
  match fuel with
  | 0 => throw .malformed
  | fuel + 1 =>
    match ns with
    | [] => return []
    | n :: rest => return (← value fuel s n) :: (← values fuel s rest)

def mapping (fuel : Nat) (s : Scope) (textual : Bool) (m : Merging) (fields : List (Node × Node)) :
    Evaluate Merging :=
  match fuel with
  | 0 => throw .malformed
  | fuel + 1 => do
    if hasRepeatedKey fields then
      fail
      return m
    else
      let own := fields.filter fun f => !isMerge f.1
      let m' ← ownFields fuel s textual m own
      match (fields.filter fun f => isMerge f.1).getLast? with
      | none => return m'
      | some (_, source) =>
        let nodes := match source with
          | .sequence _ items => items
          | n => [n]
        match m'.settled with
        | some _ => mergeAll fuel s textual m' nodes
        | none =>
          let keys ← keysOf fuel s (fields.map (·.1))
          let after ← mergeAll fuel s textual { m' with settled := some keys } nodes
          return { after with settled := none }

def keysOf (fuel : Nat) (s : Scope) (keys : List Node) : Evaluate (List Value) :=
  match fuel with
  | 0 => throw .malformed
  | fuel + 1 =>
    match keys with
    | [] => return []
    | k :: rest => do
      let key ← value fuel s k
      if isCollection key then throw .incomparable
      return key :: (← keysOf fuel s rest)

def mergeAll (fuel : Nat) (s : Scope) (textual : Bool) (m : Merging) (nodes : List Node) :
    Evaluate Merging :=
  match fuel with
  | 0 => throw .malformed
  | fuel + 1 =>
    match nodes with
    | [] => return m
    | n :: rest => do
      if !isMapping s n then throw .malformed
      let m ← mergeOne fuel s textual m n
      mergeAll fuel s textual m rest

def mergeOne (fuel : Nat) (s : Scope) (textual : Bool) (m : Merging) (n : Node) :
    Evaluate Merging :=
  match fuel with
  | 0 => throw .malformed
  | fuel + 1 => do
    count (!s.active.isEmpty)
    match n with
    | .mapping _ fields => mapping fuel s textual m fields
    | .reference _ number =>
      match s.target? number with
      | some target =>
        if s.active.contains number then throw .malformed
        else mergeOne fuel { s with active := number :: s.active } textual m target
      | none => throw .malformed
    | _ => throw .malformed

/-- Adds fields one by one, settled ones apart. -/
def ownFields (fuel : Nat) (s : Scope) (textual : Bool) (m : Merging)
    (fields : List (Node × Node)) : Evaluate Merging :=
  match fuel with
  | 0 => throw .malformed
  | fuel + 1 =>
    match fields with
    | [] => return m
    | (k, v) :: rest => do
      match ← fieldKey fuel s textual m k with
      | none => ownFields fuel s textual m rest
      | some (key, name) =>
        if m.settled.any (·.any (sameKey key)) then ownFields fuel s textual m rest
        else
          let v ← value fuel s v
          ownFields fuel s textual
            { fields := insert m.fields name v, settled := m.settled.map (key :: ·) } rest

/-- The key of a field and its name. Where keys are texts, a null has none and collections cannot
stay; where they are not, no name is needed. -/
def fieldKey (fuel : Nat) (s : Scope) (textual : Bool) (m : Merging) (k : Node) :
    Evaluate (Option (Value × Bytes)) :=
  match fuel with
  | 0 => throw .malformed
  | fuel + 1 =>
    if textual then
      match s.resolve? (s.anchored.length + 1) k with
      | some (.scalar ..) => do
        let key ← value fuel s k
        return (keyName? s k key).map fun name => (.string name, name)
      | _ => do
        fail
        return none
    else do
      let key ← value fuel s k
      if isCollection key then throw (if m.settled.isSome then .incomparable else .malformed)
      return some (key, [])

end

/-- A mapping whose keys are taken as texts, as a whole document. -/
def document (fuel : Nat) (s : Scope) (n : Node) : Evaluate (List (Bytes × Value)) := do
  match n with
  | .mapping _ fields =>
    count false
    return (← mapping fuel s true {} fields).fields
  | n =>
    match ← value fuel s n with
    | .null => return []
    | _ => throw .malformed

end Evaluate

namespace Tree

/-- Runs an evaluation on the root. The fuel covers every chain of aliases and levels. -/
def evaluate (t : Tree) (size : Nat) (work : Nat → Evaluate.Scope → Node → Evaluate α) :
    Except Fault α := do
  let fuel := (size + 8) * (t.anchored.length + 8) * 8
  let (a, tally) ← (work fuel { anchored := t.anchored } t.root).run { nodes := 1 }
  if tally.failed then .error .malformed else return a

end Tree

/-- The value of the first document of a text; nothing at all is null. -/
def parse (document : Bytes) : Except Fault Value := do
  let i := Input.ofBytes document
  match ← Tree.read i with
  | none => return .null
  | some t => t.evaluate i.chars.length Evaluate.value

/-- The fields of the first document of a text, which is a mapping or null. Keys that are no texts
are taken by the text that is written. -/
def parseFields (document : Bytes) : Except Fault (List (Bytes × Value)) := do
  let i := Input.ofBytes document
  match ← Tree.read i with
  | none => return []
  | some t => t.evaluate i.chars.length Evaluate.document

end PortCodec.Document.Yaml
