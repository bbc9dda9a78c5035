/-!
# JSON values, their spelling and their reading

`Json.render` spells a value without any blank, and `Json.parse` reads a text: blanks
between tokens, every escape of a string (`\uXXXX` and surrogate pairs included), signed
numbers with fraction and exponent. A text is well-formed when it is read, and what it
says is the value it is read as.

A number is kept as `mantissa * 10 ^ exponent`, so an integer is a number of exponent
zero and a fraction is one whose exponent is negative. An object keeps its members in the
order they are written, repeated keys included: `NoRepeatedKeys` is a property a value may
fail to have.
-/

/-- A JSON value. -/
inductive Json where
  | null
  | bool (b : Bool)
  | num (mantissa exponent : Int)
  | str (s : String)
  | arr (items : List Json)
  | obj (members : List (String × Json))

namespace Json

/-- The integer `i`. -/
abbrev int (i : Int) : Json := .num i 0

/-- The first member of that name, of an object. -/
def member? : Json → String → Option Json
  | .obj members, key => members.lookup key
  | _, _ => none

@[simp] theorem member?_obj (members : List (String × Json)) (key : String) :
    (Json.obj members).member? key = members.lookup key := rfl

mutual

/-- No object in the value, at any depth, has two members of one name. -/
def NoRepeatedKeys : Json → Prop
  | .arr items => NoRepeatedKeysItems items
  | .obj members => (members.map (·.1)).Nodup ∧ NoRepeatedKeysMembers members
  | _ => True

def NoRepeatedKeysItems : List Json → Prop
  | [] => True
  | v :: vs => NoRepeatedKeys v ∧ NoRepeatedKeysItems vs

def NoRepeatedKeysMembers : List (String × Json) → Prop
  | [] => True
  | (_, v) :: ms => NoRepeatedKeys v ∧ NoRepeatedKeysMembers ms

end

/-! ## Spelling -/

/-- A hexadecimal digit, upper case. -/
def hexDigit (n : Nat) : Char :=
  if n < 10 then Char.ofNat (48 + n) else Char.ofNat (55 + n)

/-- One character inside a string: the two that would end or escape it, and the controls,
are escaped; every other stands for itself. -/
def escape (c : Char) : List Char :=
  if c = '"' then ['\\', '"']
  else if c = '\\' then ['\\', '\\']
  else if c.toNat < 32 then
    if c.toNat = 8 then ['\\', 'b']
    else if c.toNat = 9 then ['\\', 't']
    else if c.toNat = 10 then ['\\', 'n']
    else if c.toNat = 12 then ['\\', 'f']
    else if c.toNat = 13 then ['\\', 'r']
    else ['\\', 'u', '0', '0', hexDigit (c.toNat / 16), hexDigit (c.toNat % 16)]
  else [c]

/-- A string between quotation marks. -/
def quote (s : String) : List Char := '"' :: (s.toList.flatMap escape ++ ['"'])

/-- An integer in decimal. -/
def renderInt (i : Int) : List Char :=
  if i < 0 then '-' :: Nat.toDigits 10 i.natAbs else Nat.toDigits 10 i.natAbs

mutual

/-- The spelling of a value. -/
def render : Json → List Char
  | .null => ['n', 'u', 'l', 'l']
  | .bool true => ['t', 'r', 'u', 'e']
  | .bool false => ['f', 'a', 'l', 's', 'e']
  | .num m e => if e = 0 then renderInt m else renderInt m ++ 'e' :: renderInt e
  | .str s => quote s
  | .arr items => '[' :: (renderItems items ++ [']'])
  | .obj members => '{' :: (renderMembers members ++ ['}'])

def renderItems : List Json → List Char
  | [] => []
  | [v] => render v
  | v :: w :: vs => render v ++ ',' :: renderItems (w :: vs)

def renderMembers : List (String × Json) → List Char
  | [] => []
  | [(k, v)] => quote k ++ ':' :: render v
  | (k, v) :: m :: ms => quote k ++ ':' :: (render v ++ ',' :: renderMembers (m :: ms))

end

/-! ## Reading -/

/-- A blank between tokens. -/
def isBlank (c : Char) : Bool := c = ' ' || c = '\n' || c = '\r' || c = '\t'

/-- The text from its first character that is not a blank. -/
def skipBlanks (text : List Char) : List Char := text.dropWhile isBlank

/-- The text after a fixed word. -/
def expect : List Char → List Char → Option (List Char)
  | [], text => some text
  | w :: word, c :: text => if w = c then expect word text else none
  | _ :: _, [] => none

/-- The value of a hexadecimal digit of either case. -/
def hexVal (c : Char) : Option Nat :=
  if c.isDigit then some (c.toNat - 48)
  else if 'a' ≤ c ∧ c ≤ 'f' then some (c.toNat - 87)
  else if 'A' ≤ c ∧ c ≤ 'F' then some (c.toNat - 55)
  else none

/-- Four hexadecimal digits: one UTF-16 unit. -/
def parseUnit : List Char → Option (Nat × List Char)
  | a :: b :: c :: d :: text => do
    let a ← hexVal a
    let b ← hexVal b
    let c ← hexVal c
    let d ← hexVal d
    some (4096 * a + 256 * b + 16 * c + d, text)
  | _ => none

/-- What stands after `\u`: a unit, or a high surrogate and the escape of a low one. -/
def parseUnicode (text : List Char) : Option (Char × List Char) := do
  let (high, text) ← parseUnit text
  if 0xD800 ≤ high ∧ high < 0xDC00 then
    let text ← expect ['\\', 'u'] text
    let (low, text) ← parseUnit text
    if 0xDC00 ≤ low ∧ low < 0xE000 then
      some (Char.ofNat (0x10000 + 1024 * (high - 0xD800) + (low - 0xDC00)), text)
    else none
  else if 0xDC00 ≤ high ∧ high < 0xE000 then none
  else some (Char.ofNat high, text)

/-- What stands after a backslash. -/
def parseEscape : List Char → Option (Char × List Char)
  | [] => none
  | c :: text =>
    if c = '"' then some ('"', text)
    else if c = '\\' then some ('\\', text)
    else if c = '/' then some ('/', text)
    else if c = 'b' then some (Char.ofNat 8, text)
    else if c = 't' then some (Char.ofNat 9, text)
    else if c = 'n' then some (Char.ofNat 10, text)
    else if c = 'f' then some (Char.ofNat 12, text)
    else if c = 'r' then some (Char.ofNat 13, text)
    else if c = 'u' then parseUnicode text
    else none

/-- The characters of a string up to and over its closing quotation mark. The fuel bounds
the number of characters. -/
def parseChars : Nat → List Char → Option (List Char × List Char)
  | 0, _ => none
  | _ + 1, [] => none
  | fuel + 1, c :: text =>
    if c = '"' then some ([], text)
    else if c = '\\' then do
      let (c, text) ← parseEscape text
      let (cs, text) ← parseChars fuel text
      some (c :: cs, text)
    else if c.toNat < 32 then none
    else do
      let (cs, text) ← parseChars fuel text
      some (c :: cs, text)

/-- A run of decimal digits, at least one. -/
def parseDigits (text : List Char) : Option (List Char × List Char) :=
  let digits := text.takeWhile Char.isDigit
  if digits = [] then none else some (digits, text.dropWhile Char.isDigit)

/-- The fraction of a number, if it has one: its digits. -/
def parseFraction : List Char → Option (List Char × List Char)
  | '.' :: text => parseDigits text
  | text => some ([], text)

/-- The exponent of a number, if it has one. -/
def parseExponent : List Char → Option (Int × List Char)
  | [] => some (0, [])
  | c :: text =>
    if c = 'e' ∨ c = 'E' then do
      let (negative, text) := match text with
        | '-' :: text => (true, text)
        | '+' :: text => (false, text)
        | text => (false, text)
      let (digits, text) ← parseDigits text
      let e : Int := Nat.ofDigitChars 10 digits 0
      some (if negative then -e else e, text)
    else some (0, c :: text)

/-- A number without its sign: no zero may lead another digit. -/
def parseMagnitude (text : List Char) : Option (Nat × Int × List Char) := do
  let (digits, text) ← parseDigits text
  if digits.head? = some '0' ∧ digits ≠ ['0'] then none
  else
    let (fraction, text) ← parseFraction text
    let (exponent, text) ← parseExponent text
    some (Nat.ofDigitChars 10 (digits ++ fraction) 0, exponent - fraction.length, text)

/-- A number. -/
def parseNumber : List Char → Option (Json × List Char)
  | [] => none
  | c :: text =>
    if c = '-' then (parseMagnitude text).map fun (m, e, rest) => (.num (-(m : Int)) e, rest)
    else (parseMagnitude (c :: text)).map fun (m, e, rest) => (.num m e, rest)

mutual

/-- A value, at the start of the text after blanks. The fuel bounds the depth. -/
def parseValue : Nat → List Char → Option (Json × List Char)
  | 0, _ => none
  | fuel + 1, text =>
    match skipBlanks text with
    | [] => none
    | c :: rest =>
      if c = 'n' then (expect ['u', 'l', 'l'] rest).map (.null, ·)
      else if c = 't' then (expect ['r', 'u', 'e'] rest).map (.bool true, ·)
      else if c = 'f' then (expect ['a', 'l', 's', 'e'] rest).map (.bool false, ·)
      else if c = '"' then
        (parseChars fuel rest).map fun (cs, rest) => (.str (String.ofList cs), rest)
      else if c = '[' then
        match expect [']'] (skipBlanks rest) with
        | some rest => some (.arr [], rest)
        | none => (parseItems fuel rest).map fun (items, rest) => (.arr items, rest)
      else if c = '{' then
        match expect ['}'] (skipBlanks rest) with
        | some rest => some (.obj [], rest)
        | none => (parseMembers fuel rest).map fun (members, rest) => (.obj members, rest)
      else parseNumber (c :: rest)

/-- The items of an array, at least one, up to and over its closing bracket. -/
def parseItems : Nat → List Char → Option (List Json × List Char)
  | 0, _ => none
  | fuel + 1, text => do
    let (v, text) ← parseValue fuel text
    match skipBlanks text with
    | [] => none
    | c :: text =>
      if c = ']' then some ([v], text)
      else if c = ',' then do
        let (vs, text) ← parseItems fuel text
        some (v :: vs, text)
      else none

/-- The members of an object, at least one, up to and over its closing brace. -/
def parseMembers : Nat → List Char → Option (List (String × Json) × List Char)
  | 0, _ => none
  | fuel + 1, text => do
    let text ← expect ['"'] (skipBlanks text)
    let (key, text) ← parseChars fuel text
    let text ← expect [':'] (skipBlanks text)
    let (v, text) ← parseValue fuel text
    match skipBlanks text with
    | [] => none
    | c :: text =>
      if c = '}' then some ([(String.ofList key, v)], text)
      else if c = ',' then do
        let (ms, text) ← parseMembers fuel text
        some ((String.ofList key, v) :: ms, text)
      else none

end

/-- **The reading of a text**: one value, and nothing but blanks after it. Twice the length
of the text is more depth than it can have. -/
def parse (text : List Char) : Option Json :=
  match parseValue (2 * text.length) text with
  | some (v, rest) => if skipBlanks rest = [] then some v else none
  | none => none

end Json
