import PortCodec.Layout.Basic

/-!
Planning a layout. Buttons take one bit each in the order of declaration, axes two bytes each
behind the button bytes, and empty places take nothing.
-/

namespace PortCodec

namespace Layout

/-- The least power of two that is at least `n`. -/
def powerAtLeast (n : Nat) : Nat := if n ≤ 1 then 1 else Nat.pow 2 ((n - 1).log2 + 1)

/-- How many button bits and axes have been placed so far. -/
structure Placed where
  bits : Nat := 0
  axes : Nat := 0

def place (base : Nat) (placed : Placed) (c : Control) : Entry :=
  if c.kind = .button then
    { kind := c.kind, offset := placed.bits / 8, mask := UInt8.ofNat (Nat.pow 2 (placed.bits % 8)) }
  else if c.kind.isAxis then { kind := c.kind, offset := base + 2 * placed.axes }
  else { kind := c.kind }

def Placed.next (placed : Placed) (c : Control) : Placed :=
  if c.kind = .button then { placed with bits := placed.bits + 1 }
  else if c.kind.isAxis then { placed with axes := placed.axes + 1 }
  else placed

def stepOf (c : Control) (e : Entry) : List Step :=
  if c.kind = .button then [.button e.offset e.mask c.movie]
  else if c.kind.isAxis then [.axis e.offset]
  else []

/-- Entries and steps of the controls of one controller, from position `i` on. -/
def planControls (base controller : Nat) :
    (i : Nat) → Placed → List Control → List Entry × List Step × Placed
  | _, placed, [] => ([], [], placed)
  | i, placed, c :: rest =>
    let e := { place base placed c with controller, control := i }
    let (entries, steps, placed') := planControls base controller (i + 1) (placed.next c) rest
    (e :: entries, stepOf c e ++ steps, placed')

/-- Entries that fill a controller's part of the index. -/
def padding (controller used stride : Nat) : List Entry :=
  (List.range' used (stride - used)).map fun i => { controller, control := i }

/-- The separator in front of a controller. A system port has none before its first. -/
def separator (system : Bool) (controller : Nat) : List Step :=
  if controller = 0 then (if system then [] else [.leadingPipe]) else [.pipe]

def planControllers (base stride : Nat) (system : Bool) :
    (i : Nat) → Placed → List Controller → List Entry × List Step
  | _, _, [] => ([], [])
  | i, placed, c :: rest =>
    let (entries, steps, placed') := planControls base i 0 placed c.controls
    let (entries', steps') := planControllers base stride system (i + 1) placed' rest
    (entries ++ padding i c.controls.length stride ++ entries',
      separator system i ++ steps ++ steps')

def controlsOf (p : Port) : List Control := p.controllers.flatMap (·.controls)

def buttonCount (p : Port) : Nat := (controlsOf p).countP (·.kind = .button)

def axisCount (p : Port) : Nat := (controlsOf p).countP (·.kind.isAxis)

def widest (p : Port) : Nat := (p.controllers.map (·.controls.length)).foldl max 0

def plan (p : Port) : Layout :=
  let base := (buttonCount p + 7) / 8
  let stride := powerAtLeast (widest p)
  let (index, steps) := planControllers base stride p.isSystem 0 {} p.controllers
  { storageSize := base + 2 * axisCount p
    buttonBits := buttonCount p
    axes := axisCount p
    controllers := p.controllers.length
    stride
    system := p.isSystem
    index
    program := steps ++ [if p.controllers.isEmpty then .finishEmpty else .finish] }

end Layout
end PortCodec
