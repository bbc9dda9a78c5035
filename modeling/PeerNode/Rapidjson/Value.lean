import PeerNode.Sniper

/-!
# The values of a document

`rapidjson::GenericValue` (`libs/contrib/rapidjson/document.h`): what a text is read as. A string
is its bytes, whatever they are. A number is of the type that the reader told its handler of, and
says its value only if that is one of the four integer types: what a `double` is stays open.
-/

namespace PeerNode.Rapidjson

/-- A character of the source, as a byte. -/
abbrev ch (c : Char) : UInt8 := c.toUInt8

/-- The number of an event: which of `Int`, `Uint`, `Int64`, `Uint64` and `Double` is called. -/
inductive Number (D : Type)
  | int (i : Int32)
  | uint (u : UInt32)
  | int64 (i : Int64)
  | uint64 (u : UInt64)
  | double (d : D)
deriving DecidableEq, Repr

/-- The number of an event as an integer, if it is one. -/
def Number.toInt? {D : Type} : Number D → Option Int
  | .int i => some i.toInt
  | .uint u => some u.toNat
  | .int64 i => some i.toInt
  | .uint64 u => some u.toNat
  | .double _ => none

/-- `GenericValue`. -/
inductive Value (D : Type)
  | null
  | bool (b : Bool)
  | number (n : Number D)
  | string (str : Bytes)
  | object (members : List (Value D × Value D))
  | array (elements : List (Value D))

variable {D : Type}

mutual

/-- How deep a value is nested: one for itself, and what its members or elements are. -/
def Value.depth : Value D → Nat
  | .object members => membersDepth members + 1
  | .array elements => elementsDepth elements + 1
  | _ => 1

def membersDepth : List (Value D × Value D) → Nat
  | [] => 0
  | (_, v) :: members => max v.depth (membersDepth members)

def elementsDepth : List (Value D) → Nat
  | [] => 0
  | v :: elements => max v.depth (elementsDepth elements)

end

theorem depth_pos (v : Value D) : 0 < v.depth := by
  cases v <;> exact Nat.succ_pos _

end PeerNode.Rapidjson
