import PortCodec.Text.LetterCase
import PortCodec.Text.Quoted

/-!
How a codec does its work: by running the program of its layout step by step, or by compiled code.
-/

namespace PortCodec

inductive Backend
  /-- Compiled code where that can be had. -/
  | auto
  | interpreter
  | native
  | unknown (code : UInt8)
  deriving DecidableEq

namespace Backend

def ofCode (n : UInt8) : Backend :=
  if n = 0 then .auto else if n = 1 then .interpreter else if n = 2 then .native else .unknown n

def name : Backend → String
  | .auto => "auto"
  | .interpreter => "interpreter"
  | .native => "native"
  | .unknown n => s!"BackendKind({n.toNat})"

/-- The backend that a word stands for; blanks around it and the case of letters do not count. -/
def ofName? (s : String) : Option Backend :=
  match Text.lowerCase (Text.trim s) with
  | "" => some .auto
  | "auto" => some .auto
  | "interpreter" => some .interpreter
  | "interp" => some .interpreter
  | "native" => some .native
  | "jit" => some .native
  | _ => none

def unknownMessage (s : String) : String := "unknown backend " ++ Text.Quoted.string s

end Backend
end PortCodec
