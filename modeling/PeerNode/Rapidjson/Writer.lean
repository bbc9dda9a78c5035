import PeerNode.Lib.JsonRoundTrip

/-!
# The JSON writer

`rapidjson::Writer<StringBuffer>` (`libs/contrib/rapidjson/writer.h`), as far as the node
drives it: a stream, and a stack with the number of values written at each open level.
Whether a comma, a colon or nothing goes before a value is decided by that number alone;
keys and values are counted alike, and a key is a value at an even place.

The vectorised scan of `WriteString` copies what the table leaves alone, as the plain loop
does, so the table is the whole of it. Bytes from 0x80 up are copied as they are.

`Emits` is what a run of calls is worth: wherever they are made, they leave the stack as
one value would and write that value's spelling. `emits_object` and `emits_array` compose it.
-/

namespace PeerNode.Rapidjson

/-- `Writer::Level`. -/
structure Level where
  valueCount : Nat := 0
  inArray : Bool
deriving DecidableEq, Repr

/-- `Writer`: the stream, the level stack (innermost first) and whether a root was written. -/
structure Writer where
  os : List Char := []
  levelStack : List Level := []
  hasRoot : Bool := false
deriving DecidableEq, Repr

/-- `hexDigits`. -/
def hexDigits : List Char :=
  ['0', '1', '2', '3', '4', '5', '6', '7', '8', '9', 'A', 'B', 'C', 'D', 'E', 'F']

/-- The first two rows of `escape`, the controls. -/
def escapeControls : List Char :=
  ['u', 'u', 'u', 'u', 'u', 'u', 'u', 'u', 'b', 't', 'n', 'u', 'f', 'r', 'u', 'u',
   'u', 'u', 'u', 'u', 'u', 'u', 'u', 'u', 'u', 'u', 'u', 'u', 'u', 'u', 'u', 'u']

/-- The table `escape`: beyond the controls only two entries are not zero. -/
def escape (c : Char) : Option Char :=
  if c.toNat < 32 then escapeControls[c.toNat]?
  else if c = '"' then some '"'
  else if c = '\\' then some '\\'
  else none

/-- One turn of the loop of `WriteString`. -/
def writeChar (c : Char) : List Char :=
  match escape c with
  | some e =>
    if e = 'u' then
      ['\\', 'u', '0', '0', hexDigits.getD (c.toNat / 16) '0', hexDigits.getD (c.toNat % 16) '0']
    else ['\\', e]
  | none => [c]

namespace Writer

/-- Put characters on the stream. -/
def put (w : Writer) (cs : List Char) : Writer := { w with os := w.os ++ cs }

/-- `Prefix`: what separates a value from the one before it, and the count. -/
def writePrefix (w : Writer) : Writer :=
  match w.levelStack with
  | [] => { w with hasRoot := true }
  | level :: rest =>
    let separator :=
      if level.valueCount > 0 then
        if level.inArray then [',']
        else if level.valueCount % 2 = 0 then [','] else [':']
      else []
    { w with
      os := w.os ++ separator
      levelStack := { level with valueCount := level.valueCount + 1 } :: rest }

/-- `WriteString`. -/
def writeString (w : Writer) (s : String) : Writer :=
  w.put ('"' :: (s.toList.flatMap writeChar ++ ['"']))

/-- `Null`. -/
def null (w : Writer) : Writer := w.writePrefix.put ['n', 'u', 'l', 'l']

/-- `Int` and `Int64`: the decimal digits, after a minus sign if negative. -/
def int64 (w : Writer) (i : Int) : Writer := w.writePrefix.put (Json.renderInt i)

/-- `String`. -/
def string (w : Writer) (s : String) : Writer := w.writePrefix.writeString s

/-- `Key2`. -/
def key (w : Writer) (s : String) : Writer := w.string s

/-- `StartObject`. -/
def startObject (w : Writer) : Writer :=
  let w := w.writePrefix
  { w with levelStack := { inArray := false } :: w.levelStack }.put ['{']

/-- `EndObject`. -/
def endObject (w : Writer) : Writer :=
  { w with levelStack := w.levelStack.tail }.put ['}']

/-- `StartArray`. -/
def startArray (w : Writer) : Writer :=
  let w := w.writePrefix
  { w with levelStack := { inArray := true } :: w.levelStack }.put ['[']

/-- `EndArray`. -/
def endArray (w : Writer) : Writer :=
  { w with levelStack := w.levelStack.tail }.put [']']

end Writer

/-! ## Strings -/

private theorem writeChar_control :
    ∀ n < 32, writeChar (Char.ofNat n) = Json.escape (Char.ofNat n) := by decide

/-- The table and its loop spell a character as a JSON string does. -/
theorem writeChar_eq_escape (c : Char) : writeChar c = Json.escape c := by
  by_cases control : c.toNat < 32
  · have h := writeChar_control c.toNat control
    rwa [Char.ofNat_toNat] at h
  · unfold writeChar escape Json.escape
    by_cases quotation : c = '"'
    · subst quotation
      rfl
    · by_cases backslash : c = '\\'
      · subst backslash
        rfl
      · simp only [control, quotation, backslash, if_false]

theorem writeString_eq_quote (w : Writer) (s : String) :
    w.writeString s = w.put (Json.quote s) := by
  have same : writeChar = Json.escape := funext writeChar_eq_escape
  rw [Writer.writeString, same, Json.quote]

/-! ## What calls are worth -/

/-- The calls write the value `v`, wherever they are made. -/
def Emits (calls : Writer → Writer) (v : Json) : Prop :=
  ∀ w, calls w = w.writePrefix.put v.render

theorem emits_null : Emits Writer.null .null := fun _ => rfl

theorem emits_int64 (i : Int) : Emits (·.int64 i) (.int i) := by
  intro w
  simp only [Writer.int64, Json.render, if_true]

theorem emits_string (s : String) : Emits (·.string s) (.str s) :=
  fun w => writeString_eq_quote w.writePrefix s

/-- A member to write: its key, the calls that write its value, and the value. -/
structure Member where
  key : String
  calls : Writer → Writer
  value : Json
  emits : Emits calls value

namespace Member

/-- A member whose value is a string. -/
def string (key s : String) : Member := ⟨key, (·.string s), .str s, emits_string s⟩

def int64 (key : String) (i : Int) : Member := ⟨key, (·.int64 i), .int i, emits_int64 i⟩

def null (key : String) : Member := ⟨key, Writer.null, .null, emits_null⟩

/-- The calls for one member. -/
def write (w : Writer) (m : Member) : Writer := m.calls (w.key m.key)

/-- The member it leaves in the text. -/
def entry (m : Member) : String × Json := (m.key, m.value)

end Member

/-- In an object level that holds `n` members, a member is written after a comma unless it is
the first, and its value after a colon. -/
private theorem write_member (m : Member) (os : List Char) (n : Nat) (rest : List Level)
    (root : Bool) :
    Member.write ⟨os, ⟨2 * n, false⟩ :: rest, root⟩ m
      = ⟨os ++ ((if n = 0 then [] else [',']) ++ (Json.quote m.key ++ ':' :: m.value.render)),
          ⟨2 * (n + 1), false⟩ :: rest, root⟩ := by
  have even : 2 * n % 2 = 0 := by omega
  have odd : ¬ (2 * n + 1) % 2 = 0 := by omega
  have count : 2 * n + 1 + 1 = 2 * (n + 1) := by omega
  rw [Member.write, m.emits, Writer.key, Writer.string, writeString_eq_quote]
  by_cases first : n = 0
  · subst first
    simp [Writer.writePrefix, Writer.put]
  · have more : 2 * n > 0 := by omega
    simp only [Writer.writePrefix, Writer.put, more, even, odd, first, count, if_true, if_false,
      Bool.false_eq_true, Nat.succ_pos, gt_iff_lt, List.append_assoc, List.cons_append,
      List.nil_append]

/-- Members one after the other, the first of them the `n`-th of its object. -/
private theorem write_members (ms : List Member) (os : List Char) (n : Nat) (rest : List Level)
    (root : Bool) :
    ∃ count, ms.foldl Member.write ⟨os, ⟨2 * n, false⟩ :: rest, root⟩
      = ⟨os ++ ((if n = 0 ∨ ms = [] then [] else [','])
            ++ Json.renderMembers (ms.map Member.entry)),
          ⟨count, false⟩ :: rest, root⟩ := by
  induction ms generalizing os n with
  | nil => exact ⟨2 * n, by simp [Json.renderMembers]⟩
  | cons m ms ih =>
    rw [List.foldl_cons, write_member]
    obtain ⟨count, h⟩ := ih (os ++ ((if n = 0 then [] else [',']) ++
      (Json.quote m.key ++ ':' :: m.value.render))) (n + 1)
    refine ⟨count, h.trans ?_⟩
    cases ms with
    | nil => simp [Json.renderMembers, Member.entry]
    | cons m' ms => simp [Json.renderMembers, Member.entry]

/-- **An object is the calls of its members between the two of its own.** -/
theorem emits_object (ms : List Member) :
    Emits (fun w => (ms.foldl Member.write w.startObject).endObject)
      (.obj (ms.map Member.entry)) := by
  intro w
  obtain ⟨count, h⟩ := write_members ms (w.writePrefix.os ++ ['{']) 0 w.writePrefix.levelStack
    w.writePrefix.hasRoot
  have start : w.startObject
      = ⟨w.writePrefix.os ++ ['{'], ⟨2 * 0, false⟩ :: w.writePrefix.levelStack,
          w.writePrefix.hasRoot⟩ := rfl
  show (ms.foldl Member.write w.startObject).endObject = _
  rw [start, h]
  simp [Writer.endObject, Writer.put, Json.render]

/-- A member whose value is an object. -/
def Member.object (key : String) (ms : List Member) : Member :=
  ⟨key, _, _, emits_object ms⟩

/-- An item of an array to write. -/
structure Item where
  calls : Writer → Writer
  value : Json
  emits : Emits calls value

/-- An item that is an object. -/
def Item.object (ms : List Member) : Item := ⟨_, _, emits_object ms⟩

/-- In an array level, an item is written after a comma unless it is the first. -/
private theorem write_item (i : Item) (os : List Char) (n : Nat) (rest : List Level)
    (root : Bool) :
    i.calls ⟨os, ⟨n, true⟩ :: rest, root⟩
      = ⟨os ++ ((if n = 0 then [] else [',']) ++ i.value.render), ⟨n + 1, true⟩ :: rest, root⟩ := by
  rw [i.emits]
  by_cases first : n = 0
  · subst first
    simp [Writer.writePrefix, Writer.put]
  · have more : n > 0 := Nat.pos_of_ne_zero first
    simp [Writer.writePrefix, Writer.put, more, first]

/-- Items one after the other, the first of them the `n`-th of its array. -/
private theorem write_items (is : List Item) (os : List Char) (n : Nat) (rest : List Level)
    (root : Bool) :
    is.foldl (fun w i => i.calls w) ⟨os, ⟨n, true⟩ :: rest, root⟩
      = ⟨os ++ ((if n = 0 ∨ is = [] then [] else [','])
            ++ Json.renderItems (is.map Item.value)),
          ⟨n + is.length, true⟩ :: rest, root⟩ := by
  induction is generalizing os n with
  | nil => simp [Json.renderItems]
  | cons i is ih =>
    rw [List.foldl_cons, write_item, ih]
    cases is with
    | nil => simp [Json.renderItems]
    | cons j is => simp [Json.renderItems, Nat.add_comm, Nat.add_left_comm]

/-- **An array is the calls of its items between the two of its own.** -/
theorem emits_array (is : List Item) :
    Emits (fun w => (is.foldl (fun w i => i.calls w) w.startArray).endArray)
      (.arr (is.map Item.value)) := by
  intro w
  have start : w.startArray
      = ⟨w.writePrefix.os ++ ['['], ⟨0, true⟩ :: w.writePrefix.levelStack,
          w.writePrefix.hasRoot⟩ := rfl
  show (is.foldl (fun w i => i.calls w) w.startArray).endArray = _
  rw [start, write_items]
  simp [Writer.endArray, Writer.put, Json.render]

/-- A member whose value is an array. -/
def Member.array (key : String) (is : List Item) : Member :=
  ⟨key, _, _, emits_array is⟩

/-- What calls made on a fresh writer leave on its stream. -/
theorem Emits.text {calls : Writer → Writer} {v : Json} (h : Emits calls v) :
    (calls {}).os = v.render := by
  rw [h]
  rfl

end PeerNode.Rapidjson
