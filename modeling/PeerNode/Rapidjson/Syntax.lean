import PeerNode.Rapidjson.Value

/-!
# The text of a document

The grammar, on its own: which bytes are a value and which value they are. Nothing of the reader
stands in it. Blanks are the four characters that JSON has, a string has its escapes and the
UTF-8 of the code points they name, an integer is the number its digits say, in the first of the
four types that holds it. Names may repeat, and an object keeps every member in its place.

Three things are `rapidjson`'s own and not JSON's. A string may hold any bytes from a space up,
and a low surrogate without a high one before it is put as three bytes that are no UTF-8. A text
ends at its end or at a NUL. And before it may stand a byte order mark, or some of its bytes.

What a number is that is no integer, or one that no type holds, is open: `Spells` and `Says` are
for any `double`, which tells what a token is and refuses those that are nothing.
-/

namespace PeerNode.Rapidjson

variable {D : Type}

/-! ## Blanks -/

/-- A space, a line feed, a carriage return or a tab. -/
def IsBlank (c : UInt8) : Prop := c = 0x20 ∨ c = 0x0A ∨ c = 0x0D ∨ c = 0x09

/-- Nothing but blanks. -/
def Blanks (b : Bytes) : Prop := ∀ c ∈ b, IsBlank c

theorem blanks_nil : Blanks [] := fun _ mem => absurd mem List.not_mem_nil

/-! ## Strings -/

/-- The hexadecimal digits, in upper and in lower case. -/
inductive HexDigit : Nat → UInt8 → Prop
  | decimal {d : Nat} (small : d < 10) : HexDigit d (.ofNat (0x30 + d))
  | upper {d : Nat} (big : 10 ≤ d) (small : d < 16) : HexDigit d (.ofNat (0x41 + (d - 10)))
  | lower {d : Nat} (big : 10 ≤ d) (small : d < 16) : HexDigit d (.ofNat (0x61 + (d - 10)))

/-- Four of them, and the unit they spell. -/
inductive Unit16 : Nat → Bytes → Prop
  | digits {a b c d : Nat} {ca cb cc cd : UInt8} (first : HexDigit a ca) (second : HexDigit b cb)
      (third : HexDigit c cc) (fourth : HexDigit d cd) :
      Unit16 (0x1000 * a + 0x100 * b + 0x10 * c + d) [ca, cb, cc, cd]

/-- The bytes of a code point in UTF-8. -/
def utf8Bytes (v : Nat) : Bytes :=
  if v < 0x80 then [.ofNat v]
  else if v < 0x800 then [.ofNat (0xC0 + v / 0x40), .ofNat (0x80 + v % 0x40)]
  else if v < 0x10000 then
    [.ofNat (0xE0 + v / 0x1000), .ofNat (0x80 + v / 0x40 % 0x40), .ofNat (0x80 + v % 0x40)]
  else
    [.ofNat (0xF0 + v / 0x40000), .ofNat (0x80 + v / 0x1000 % 0x40),
      .ofNat (0x80 + v / 0x40 % 0x40), .ofNat (0x80 + v % 0x40)]

/-- The letters that stand after a backslash, and what for. -/
inductive Letter : UInt8 → UInt8 → Prop
  | quotation : Letter 0x22 (ch '"')
  | solidus : Letter 0x2F (ch '/')
  | backslash : Letter 0x5C (ch '\\')
  | backspace : Letter 0x08 (ch 'b')
  | formFeed : Letter 0x0C (ch 'f')
  | lineFeed : Letter 0x0A (ch 'n')
  | carriageReturn : Letter 0x0D (ch 'r')
  | tab : Letter 0x09 (ch 't')

/-- A unit that calls for another after it. -/
def IsHigh (u : Nat) : Prop := 0xD800 ≤ u ∧ u ≤ 0xDBFF

/-- A unit that completes one. -/
def IsLow (u : Nat) : Prop := 0xDC00 ≤ u ∧ u ≤ 0xDFFF

/-- The code point of the two. -/
def pairPoint (high low : Nat) : Nat := 0x10000 + (high - 0xD800) * 0x400 + (low - 0xDC00)

/-- An escape without its backslash, and the bytes it puts. -/
inductive Escape : Bytes → Bytes → Prop
  | letter {c e : UInt8} (known : Letter c e) : Escape [c] [e]
  | unicode {u : Nat} {ds : Bytes} (unit : Unit16 u ds) (single : ¬ IsHigh u) :
      Escape (utf8Bytes u) (ch 'u' :: ds)
  | pair {u u' : Nat} {ds ds' : Bytes} (high : Unit16 u ds) (low : Unit16 u' ds')
      (isHigh : IsHigh u) (isLow : IsLow u') :
      Escape (utf8Bytes (pairPoint u u')) (ch 'u' :: (ds ++ ch '\\' :: ch 'u' :: ds'))

/-- What may stand between quotation marks, and the bytes it says. -/
inductive Chars : Bytes → Bytes → Prop
  | nil : Chars [] []
  | plain {c : UInt8} {str cs : Bytes} (printable : 0x20 ≤ c) (quotation : c ≠ ch '"')
      (backslash : c ≠ ch '\\') (rest : Chars str cs) : Chars (c :: str) (c :: cs)
  | escape {bytes t str cs : Bytes} (escape : Escape bytes t) (rest : Chars str cs) :
      Chars (bytes ++ str) (ch '\\' :: (t ++ cs))

/-- Between quotation marks. -/
def quoted (cs : Bytes) : Bytes := ch '"' :: (cs ++ [ch '"'])

theorem quoted_append (cs r : Bytes) : quoted cs ++ r = ch '"' :: (cs ++ ch '"' :: r) := by
  rw [quoted, List.cons_append, List.append_assoc]
  rfl

/-! ## Numbers -/

/-- A decimal digit. -/
def IsDigit (c : UInt8) : Prop := 0x30 ≤ c ∧ c ≤ 0x39

/-- Digits after a value. -/
def decimal (value : Nat) (ds : Bytes) : Nat :=
  ds.foldl (fun v c => v * 10 + (c.toNat - 0x30)) value

/-- Digits, at least one. -/
structure Digits where
  bytes : Bytes
  nonempty : bytes ≠ []
  digits : ∀ c ∈ bytes, IsDigit c

/-- The number of the digits. -/
def Digits.value (ds : Digits) : Nat := decimal 0 ds.bytes

/-- An exponent: the letter, the sign if there is one, the digits. -/
structure Exponent where
  letter : UInt8
  isE : letter = ch 'e' ∨ letter = ch 'E'
  sign : Option Bool
  digits : Digits

namespace Exponent

/-- The sign as it is written. -/
def signBytes : Option Bool → Bytes
  | none => []
  | some false => [ch '+']
  | some true => [ch '-']

def bytes (e : Exponent) : Bytes := e.letter :: (signBytes e.sign ++ e.digits.bytes)

def minus (e : Exponent) : Bool := e.sign.getD false

end Exponent

/-- A number as it is written: no zero leads another digit. -/
structure NumberToken where
  minus : Bool
  int : Digits
  leading : int.bytes.head? = some (ch '0') → int.bytes = [ch '0']
  frac : Option Digits
  exp : Option Exponent

namespace NumberToken

def fracBytes : Option Digits → Bytes
  | none => []
  | some ds => ch '.' :: ds.bytes

def expBytes : Option Exponent → Bytes
  | none => []
  | some e => e.bytes

def bytes (t : NumberToken) : Bytes :=
  (if t.minus then [ch '-'] else []) ++ (t.int.bytes ++ (fracBytes t.frac ++ expBytes t.exp))

/-- It has neither a fraction nor an exponent. -/
def Whole (t : NumberToken) : Prop := t.frac = none ∧ t.exp = none

/-- The integer that is written, of one that has not. -/
def toInt (t : NumberToken) : Int := if t.minus then -(t.int.value : Int) else t.int.value

end NumberToken

/-- The type of an integer: the first of these that holds it. -/
def integerNumber (minus : Bool) (value : Nat) : Option (Number D) :=
  if minus then
    if value ≤ 2147483648 then some (.int (.ofInt (-value)))
    else if value ≤ 9223372036854775808 then some (.int64 (.ofInt (-value)))
    else none
  else if value ≤ 4294967295 then some (.uint (.ofNat value))
  else if value ≤ 18446744073709551615 then some (.uint64 (.ofNat value))
  else none

/-- The number that a token is. -/
inductive Tells (double : NumberToken → Option D) (t : NumberToken) : Number D → Prop
  | integer {n : Number D} (whole : t.Whole) (holds : integerNumber t.minus t.int.value = some n) :
      Tells double t n
  | double {d : D} (other : t.Whole → integerNumber (D := D) t.minus t.int.value = none)
      (is : double t = some d) : Tells double t (.double d)

/-! ## Values -/

/-- A value, the members between two braces or the elements between two brackets. -/
inductive Phrase (D : Type)
  | value (v : Value D)
  | members (ms : List (Value D × Value D))
  | elements (vs : List (Value D))

/-- The bytes are that phrase. -/
inductive Spells (double : NumberToken → Option D) : Phrase D → Bytes → Prop
  | null : Spells double (.value .null) [ch 'n', ch 'u', ch 'l', ch 'l']
  | true : Spells double (.value (.bool .true)) [ch 't', ch 'r', ch 'u', ch 'e']
  | false : Spells double (.value (.bool .false)) [ch 'f', ch 'a', ch 'l', ch 's', ch 'e']
  | string {str cs : Bytes} (chars : Chars str cs) :
      Spells double (.value (.string str)) (quoted cs)
  | number {t : NumberToken} {n : Number D} (tells : Tells double t n) :
      Spells double (.value (.number n)) t.bytes
  | emptyObject {b : Bytes} (blanks : Blanks b) :
      Spells double (.value (.object [])) (ch '{' :: (b ++ [ch '}']))
  | object {b t : Bytes} {ms : List (Value D × Value D)} (blanks : Blanks b)
      (members : Spells double (.members ms) t) :
      Spells double (.value (.object ms)) (ch '{' :: (b ++ (t ++ [ch '}'])))
  | emptyArray {b : Bytes} (blanks : Blanks b) :
      Spells double (.value (.array [])) (ch '[' :: (b ++ [ch ']']))
  | array {b t : Bytes} {vs : List (Value D)} (blanks : Blanks b)
      (elements : Spells double (.elements vs) t) :
      Spells double (.value (.array vs)) (ch '[' :: (b ++ (t ++ [ch ']'])))
  | member {key cs b₁ b₂ t b₃ : Bytes} {v : Value D} (name : Chars key cs) (before : Blanks b₁)
      (after : Blanks b₂) (value : Spells double (.value v) t) (close : Blanks b₃) :
      Spells double (.members [(.string key, v)])
        (quoted cs ++ (b₁ ++ ch ':' :: (b₂ ++ (t ++ b₃))))
  | moreMembers {key cs b₁ b₂ t b₃ b₄ t' : Bytes} {v : Value D}
      {ms : List (Value D × Value D)} (name : Chars key cs) (before : Blanks b₁)
      (after : Blanks b₂) (value : Spells double (.value v) t) (comma : Blanks b₃)
      (next : Blanks b₄) (rest : Spells double (.members ms) t') :
      Spells double (.members ((.string key, v) :: ms))
        (quoted cs ++ (b₁ ++ ch ':' :: (b₂ ++ (t ++ (b₃ ++ ch ',' :: (b₄ ++ t'))))))
  | element {t b : Bytes} {v : Value D} (value : Spells double (.value v) t) (close : Blanks b) :
      Spells double (.elements [v]) (t ++ b)
  | moreElements {t b b' t' : Bytes} {v : Value D} {vs : List (Value D)}
      (value : Spells double (.value v) t) (comma : Blanks b) (next : Blanks b')
      (rest : Spells double (.elements vs) t') :
      Spells double (.elements (v :: vs)) (t ++ (b ++ ch ',' :: (b' ++ t')))

/-! ## Documents -/

/-- Some bytes of a byte order mark, in their order. -/
def IsMark (mark : Bytes) : Prop := mark.Sublist [0xEF, 0xBB, 0xBF]

/-- The end of a text, or a NUL and anything. -/
def IsEnd (rest : Bytes) : Prop := rest = [] ∨ ∃ r, rest = 0 :: r

/-- The document of a text: after what there is of a byte order mark, a value between blanks, and
then the end. -/
def Says (double : NumberToken → Option D) (str : Bytes) (v : Value D) : Prop :=
  ∃ mark b t b' rest, str = mark ++ (b ++ (t ++ (b' ++ rest))) ∧ IsMark mark ∧ Blanks b ∧
    Spells double (.value v) t ∧ Blanks b' ∧ IsEnd rest

/-! ## Depth -/

/-- How deep the values of a phrase are nested. -/
def Phrase.depth : Phrase D → Nat
  | .value v => v.depth
  | .members ms => membersDepth ms
  | .elements vs => elementsDepth vs

/-- A byte that opens an object or an array. -/
def opensValue (c : UInt8) : Bool := c == ch '{' || c == ch '['

/-- How many of them are in a text, be it in strings or not. -/
def opening (s : Bytes) : Nat := s.countP opensValue

/-- No value is nested deeper than its text has opening brackets. -/
theorem Spells.depth_le {double : NumberToken → Option D} {p : Phrase D} {t : Bytes}
    (h : Spells double p t) : p.depth ≤ opening t + 1 := by
  unfold opening
  induction h with
  | emptyObject _ => exact Nat.succ_le_succ (Nat.zero_le _)
  | emptyArray _ => exact Nat.succ_le_succ (Nat.zero_le _)
  | object _ _ ih =>
    simp only [Phrase.depth, Value.depth, List.countP_cons, List.countP_append] at ih ⊢
    rw [if_pos (show opensValue (ch '{') = .true from rfl)]
    omega
  | array _ _ ih =>
    simp only [Phrase.depth, Value.depth, List.countP_cons, List.countP_append] at ih ⊢
    rw [if_pos (show opensValue (ch '[') = .true from rfl)]
    omega
  | member _ _ _ _ _ ih =>
    simp only [Phrase.depth, membersDepth, List.countP_cons, List.countP_append] at ih ⊢
    omega
  | moreMembers _ _ _ _ _ _ _ ih ih' =>
    simp only [Phrase.depth, membersDepth, List.countP_cons, List.countP_append] at ih ih' ⊢
    omega
  | element _ _ ih =>
    simp only [Phrase.depth, elementsDepth, List.countP_append] at ih ⊢
    omega
  | moreElements _ _ _ _ ih ih' =>
    simp only [Phrase.depth, elementsDepth, List.countP_cons, List.countP_append] at ih ih' ⊢
    omega
  | _ => exact Nat.succ_le_succ (Nat.zero_le _)

theorem opening_le_append (t r : Bytes) : opening r ≤ opening (t ++ r) :=
  (List.sublist_append_right t r).countP_le

/-- No document is nested deeper than its text has opening brackets. -/
theorem Says.depth_le {double : NumberToken → Option D} {str : Bytes} {v : Value D}
    (told : Says double str v) : v.depth ≤ opening str + 1 := by
  obtain ⟨mark, b, t, b', rest, rfl, -, -, spells, -, -⟩ := told
  have own : opening t ≤ opening (t ++ (b' ++ rest)) := (List.sublist_append_left t _).countP_le
  have more := Nat.le_trans (opening_le_append b (t ++ (b' ++ rest))) (opening_le_append mark _)
  exact Nat.le_trans spells.depth_le (Nat.succ_le_succ (Nat.le_trans own more))

end PeerNode.Rapidjson
