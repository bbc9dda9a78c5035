import PeerNode.Rapidjson.Reader

/-!
# The JSON document

`rapidjson::Document` (`libs/contrib/rapidjson/document.h`) as the handler of a parse. Every
value that is read goes on a stack; the end of an object or of an array takes its members or
elements off it and puts them into the value that its start left below them. When the parse is
over the one value on the stack is the document.

The stack's assertions are in the model: a pop of more than is there, and a stack that holds
anything but one value at the end, are failures of their own.
-/

namespace PeerNode.Rapidjson

variable {D : Type}

/-- `Stack::Pop`: that many values off the top, in the order they were pushed. -/
def pop (count : Nat) (stack : List (Value D)) : Outcome (List (Value D) × List (Value D)) :=
  if count ≤ stack.length then .ok ((stack.take count).reverse, stack.drop count)
  else .error .assertion

/-- The same memory as `Member`s: two values each. -/
def asMembers : List (Value D) → List (Value D × Value D)
  | name :: value :: values => (name, value) :: asMembers values
  | _ => []

/-- `Top`, set to something else. -/
def setTop (value : Value D) : List (Value D) → Outcome (List (Value D))
  | [] => .error .assertion
  | _ :: stack => .ok (value :: stack)

/-- The callbacks of `GenericDocument`. They all answer `true`. -/
def Document.handler : Handler D (List (Value D)) := fun stack e =>
  match e with
  | .null => .ok (.null :: stack, true)
  | .bool b => .ok (.bool b :: stack, true)
  | .number n => .ok (.number n :: stack, true)
  | .string str | .key str => .ok (.string str :: stack, true)
  | .startObject => .ok (.object [] :: stack, true)
  | .endObject memberCount => do
    let (values, stack) ← pop (2 * memberCount) stack
    let stack ← setTop (.object (asMembers values)) stack
    .ok (stack, true)
  | .startArray => .ok (.array [] :: stack, true)
  | .endArray elementCount => do
    let (values, stack) ← pop elementCount stack
    let stack ← setTop (.array values) stack
    .ok (stack, true)

/-- `Document::Parse(str, length)` on a call stack of these frames: the document, or why there is
none. -/
def Document.parseIn (frames : Nat) (ops : DoubleOps D) (str : Bytes) : Outcome (Value D) := do
  match ← Rapidjson.parse ops handler str.length frames (skipByteOrderMark str) [] with
  | [root] => .ok root
  | _ => .error .assertion

/-- The same on a call stack with room for the text: no value stands within more others than it has
bytes before it. -/
def Document.parse (ops : DoubleOps D) (str : Bytes) : Outcome (Value D) :=
  Document.parseIn (str.length + 1) ops str

/-- The loop of `FindMember`, with the assertions of `StringEqual`. -/
def findName (name : Bytes) : List (Value D × Value D) → Outcome (Option (Value D))
  | [] => .ok none
  | (.string str, value) :: members =>
    if str = name then .ok (some value) else findName name members
  | _ => .error .assertion

/-- `FindMember`: the value of the first member of that name. -/
def Value.findMember (name : Bytes) : Value D → Outcome (Option (Value D))
  | .object members => findName name members
  | _ => .error .assertion

end PeerNode.Rapidjson
