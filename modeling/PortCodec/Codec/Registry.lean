import PortCodec.Codec.Build

/-!
A registry shares one codec among all ports of equal layouts. The codec that a port gets may have
been built for another.
-/

namespace PortCodec

namespace Registry

/-- A codec in a registry. Numbers are given in the order of building and never again. -/
structure Held where
  number : Nat
  codec : Codec

end Registry

structure Registry where
  options : Codec.Options := {}
  /-- The codecs by the fingerprint of their layouts. -/
  codecs : List (Bytes × Registry.Held) := []
  /-- How many codecs were built so far. -/
  built : Nat := 0

namespace Registry

def find? (r : Registry) (fingerprint : Bytes) : Option Held :=
  (r.codecs.find? fun e => e.1 = fingerprint).map (·.2)

/-- The codec for a port's layout, built on first use. -/
def get (r : Registry) (p : Port) : Session CodecError (Held × Registry) := do
  Session.lift .invalid p.validate
  let fingerprint := (Layout.plan p).fingerprint
  match r.find? fingerprint with
  | some held => return (held, r)
  | none =>
    let codec ← Codec.build r.options p
    let held : Held := { number := r.built, codec }
    return (held, { r with codecs := (fingerprint, held) :: r.codecs, built := r.built + 1 })

def size (r : Registry) : Nat := r.codecs.length

def close (r : Registry) : Registry := { r with codecs := [] }

end Registry
end PortCodec
