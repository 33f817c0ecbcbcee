import PortCodec.Port.Basic

/-!
Ports of common controllers, ready to use.
-/

namespace PortCodec.Preset

def control (kind : Kind) (name : String) (symbol : Char) (movie : UInt8) : Control :=
  { name, kind, symbol := symbol.toNat, macroText := String.singleton symbol, movie }

def initial (name : String) : Char := name.toList.headD Text.Utf8.replacement

def byte (c : Char) : UInt8 := UInt8.ofNat c.toNat

def button (name : String) (movie : Char) : Control :=
  control .button name (initial name) (byte movie)

def marked (name : String) (symbol movie : Char) : Control :=
  control .button name symbol (byte movie)

def axis (kind : Kind) (name : String) (symbol : Char) (min max : Int16) : Control :=
  { control kind name symbol (byte symbol) with min, max }

def full (kind : Kind) (name : String) (symbol : Char) : Control :=
  axis kind name symbol (-32768) 32767

def gamepad : Port where
  name := "gamepad"
  humanName := "Gamepad"
  symbol := "G"
  slots := [1, 2]
  controllers := [{
    family := "gamepad"
    model := "pad"
    controls := [
      marked "Up" '↑' 'U', marked "Down" '↓' 'D', marked "Left" '←' 'L', marked "Right" '→' 'R',
      marked "Select" 's' 's', marked "Start" 'S' 'S', button "B" 'B', button "A" 'A'] }]

def lightgun : Port where
  name := "lightgun"
  humanName := "Light gun"
  symbol := "J"
  slots := [2]
  controllers := [{
    family := "lightgun"
    model := "justifier"
    controls := [
      axis .lightgunAxis "X" 'X' 0 255, axis .lightgunAxis "Y" 'Y' 0 239,
      button "Trigger" 'T', button "Start" 'S',
      { button "Offscreen" 'O' with shadow := true }] }]

def mouse : Port where
  name := "mouse"
  humanName := "Mouse"
  symbol := "m"
  slots := [1, 2]
  controllers := [{
    family := "mouse"
    model := "mouse"
    controls := [
      { full .axis "x" 'x' with centers := true }, { full .axis "y" 'y' with centers := true },
      button "left" 'L', button "right" 'R', button "middle" 'M'] }]

def gamepad16 : Controller where
  family := "gamepad"
  model := "gamepad16"
  controls := [
    button "B" 'B', button "Y" 'Y', button "select" 's', button "start" 'S', button "up" 'u',
    button "down" 'd', button "left" 'l', button "right" 'r', button "A" 'A', button "X" 'X',
    button "L" 'L', button "R" 'R']

def multitap : Port where
  name := "multitap"
  humanName := "Multitap"
  symbol := "M"
  slots := [1, 2]
  controllers :=
    { family := "multitap", model := "multitap", controls := [] } :: List.replicate 4 gamepad16

def steamdeck : Port where
  name := "steamdeck"
  humanName := "Steam Deck"
  symbol := "D"
  slots := [1]
  controllers := [{
    family := "handheld"
    model := "steamdeck"
    controls := [
      button "A" 'A', button "B" 'B', button "X" 'X', button "Y" 'Y', button "L1" 'l',
      button "R1" 'r', button "L4" '4', button "R4" '5', button "L5" '6', button "R5" '7',
      button "View" 'v', button "Menu" 'm', button "Steam" '$', button "QuickAccess" 'q',
      button "DpadUp" 'u', button "DpadDown" 'd', button "DpadLeft" '<', button "DpadRight" '>',
      full .axis "LeftStickX" 'x', full .reverseAxis "LeftStickY" 'y',
      full .axis "RightStickX" 'X', full .reverseAxis "RightStickY" 'Y',
      axis .triggerAxis "TriggerL" 'L' 0 32767, axis .triggerAxis "TriggerR" 'R' 0 32767,
      full .axis "LeftPadX" 'p', full .axis "LeftPadY" 'q',
      full .axis "RightPadX" 'P', full .axis "RightPadY" 'Q',
      axis .triggerAxis "PressurePadLeft" 'c' 0 32767,
      axis .triggerAxis "PressurePadRight" 'C' 0 32767,
      { full .axis "GyroPitch" 'g' with shadow := true },
      { full .axis "GyroYaw" 'G' with shadow := true }] }]

def system : Port where
  name := "system"
  humanName := "System"
  symbol := "S"
  slots := [0]
  controllers := [{
    family := "system"
    model := "console"
    controls := [button "reset" 'r', marked "power" 'P' 'P', {}, marked "diskswap" 'D' 'D'] }]

def all : List Port := [gamepad, lightgun, mouse, multitap, steamdeck, system]

def names : List String := all.map fun p => p.name.asciiText

def find? (name : String) : Option Port := all.find? fun p => p.name = Bytes.ofString name

end PortCodec.Preset
