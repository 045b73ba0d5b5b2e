import ActionStream.Action.Read
import ActionStream.Action.Write
/-!
# Checking that a stream survives decoding and encoding

A stream is checked by decoding it, encoding the actions again and comparing the bytes.
-/

namespace ActionStream

/-- The first offset from `offset` on at which two byte strings differ; if one is the beginning of
the other, its length. -/
def firstDifferenceFrom (offset : Nat) : List UInt8 → List UInt8 → Option Nat
  | [], [] => none
  | first :: firsts, second :: seconds =>
    if first = second then firstDifferenceFrom (offset + 1) firsts seconds else some offset
  | _, _ => some offset

def firstDifference (first second : List UInt8) : Option Nat :=
  firstDifferenceFrom 0 first second

/-- What a check comes to. -/
inductive CheckOutcome where
  | undecodable (error : CodecError)
  | unencodable (error : CodecError)
  /-- The stream is what its actions encode to. -/
  | identical (actions bytes : Nat)
  | different (offset input output : Nat)
  deriving DecidableEq, Repr

def checkStream (context : Context) (stream : List UInt8) : CheckOutcome :=
  match Action.decodeAll context stream with
  | .error error => .undecodable error
  | .ok actions =>
    match Action.encodeAll context actions with
    | .error error => .unencodable error
    | .ok encoded =>
      match firstDifference stream encoded with
      | some offset => .different offset stream.length encoded.length
      | none => .identical actions.length stream.length

end ActionStream
