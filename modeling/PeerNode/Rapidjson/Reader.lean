import Mathlib.Algebra.Group.Nat.Defs
import PeerNode.Rapidjson.Value

/-!
# The JSON reader

`rapidjson::Reader` (`libs/contrib/rapidjson/reader.h`) with the default flags, over the stream
that `Document::Parse(str, length)` makes (`memorystream.h`, `encodedstream.h`): bytes, and a NUL
wherever the text is over. It is a descent on the first byte of a value, which tells its handler
of everything it reads; a handler that answers `false` ends it.

A stream is the bytes that are left of it, and `Tell` is what they are short of the whole. An
outcome is a result, or one of four ways to stop: a parse error with its code and its offset, an
assertion that failed, an overflow of the call stack, or no fuel. Doubles are whatever `DoubleOps`
makes of them; every decision the reader takes on the digits of a number is its own.

`ParseValue`, `ParseObject` and `ParseArray` call one another, and with the default flags nothing
limits how deep: every value within a value takes another frame of a call stack that has an end.
`frames` is how many of them it holds, and a value that finds none left is the overflow, which in
C++ ends the process. The fuel is nothing of the source's. It only lets the loops be defined by
recursion, and is never short of what a text takes.

With `RAPIDJSON_SSE42`, which the build sets, blanks are skipped sixteen bytes at a time. The scan
of `ParseString` has no such variant for this stream.
-/

namespace PeerNode.Rapidjson

/-! ## The stream -/

/-- `MemoryStream::Peek`. `Take` leaves the tail, at the end as anywhere. -/
def peek (s : Bytes) : UInt8 := s.headD 0

/-- `MemoryStream::Tell`, in a text of this size. -/
def tell (size : Nat) (s : Bytes) : Nat := size - s.length

/-- `EncodedInputStream<UTF8<>, MemoryStream>`: the bytes of a byte order mark are skipped, each
by itself. -/
def skipByteOrderMark (s : Bytes) : Bytes :=
  let s := if peek s = 0xEF then s.tail else s
  let s := if peek s = 0xBB then s.tail else s
  if peek s = 0xBF then s.tail else s

/-- `GenericReader::Consume`: the stream after the byte, if it is the next one. -/
def consume (c : UInt8) (s : Bytes) : Option Bytes := if peek s = c then some s.tail else none

/-- Several in a row, with `&&`: what is left, and whether all of them were there. -/
def consumeAll : Bytes → Bytes → Bytes × Bool
  | [], s => (s, true)
  | c :: word, s =>
    match consume c s with
    | some s => consumeAll word s
    | none => (s, false)

/-! ## Blanks -/

def isWhitespace (c : UInt8) : Bool :=
  c = ch ' ' || c = ch '\n' || c = ch '\r' || c = ch '\t'

/-- `_mm_cmpistri` on sixteen bytes as the scan calls it: the first place that holds none of the
four blanks, a NUL and all after it counting as such. -/
def firstOther (block : Bytes) : Nat :=
  ((block.takeWhile (· ≠ 0)).takeWhile isWhitespace).length

/-- The loop over whole blocks of sixteen, of which there are this many, and the plain loop over
what is left. -/
def skipBlocks : Nat → Bytes → Bytes
  | 0, s => s.dropWhile isWhitespace
  | blocks + 1, s =>
    let r := firstOther (s.take 16)
    if r ≠ 16 then s.drop r else skipBlocks blocks (s.drop 16)

/-- `SkipWhitespace_SIMD(p, end)`. -/
def skipWhitespace (s : Bytes) : Bytes :=
  match s with
  | [] => []
  | c :: s => if isWhitespace c then skipBlocks (s.length / 16) s else c :: s

/-! ## Outcomes -/

/-- `ParseErrorCode`, but for the two that the default flags never give. -/
inductive ParseErrorCode
  | documentEmpty
  | documentRootNotSingular
  | valueInvalid
  | objectMissName
  | objectMissColon
  | objectMissCommaOrCurlyBracket
  | arrayMissCommaOrSquareBracket
  | stringUnicodeEscapeInvalidHex
  | stringUnicodeSurrogateInvalid
  | stringEscapeInvalid
  | stringMissQuotationMark
  | stringInvalidEncoding
  | numberTooBig
  | numberMissFraction
  | numberMissExponent
  | termination
deriving DecidableEq, Repr

/-- Why a parse stops: `kParseError…` with the offset, a failed `RAPIDJSON_ASSERT`, no room on the
call stack, no fuel. -/
inductive Stop
  | error (code : ParseErrorCode) (offset : Nat)
  | assertion
  | overflow
  | fuel
deriving DecidableEq, Repr

abbrev Outcome := Except Stop

/-- `RAPIDJSON_PARSE_ERROR`. -/
def fail {α : Type} (code : ParseErrorCode) (offset : Nat) : Outcome α :=
  .error (.error code offset)

/-! ## Strings -/

/-- The value of a hexadecimal digit of either case. -/
def hexValue (c : UInt8) : Option Nat :=
  if ch '0' ≤ c ∧ c ≤ ch '9' then some (c.toNat - 48)
  else if ch 'A' ≤ c ∧ c ≤ ch 'F' then some (c.toNat - 55)
  else if ch 'a' ≤ c ∧ c ≤ ch 'f' then some (c.toNat - 87)
  else none

/-- The loop of `ParseHex4`, this many digits before its end. -/
def parseHex (escapeOffset : Nat) : Nat → Nat → Bytes → Outcome (Nat × Bytes)
  | 0, codepoint, s => .ok (codepoint, s)
  | k + 1, codepoint, s =>
    match hexValue (peek s) with
    | some digit => parseHex escapeOffset k (codepoint * 16 + digit) s.tail
    | none => fail .stringUnicodeEscapeInvalidHex escapeOffset

/-- `ParseHex4`. -/
def parseHex4 (escapeOffset : Nat) (s : Bytes) : Outcome (Nat × Bytes) :=
  parseHex escapeOffset 4 0 s

/-- The table `escape`: zero where a letter stands for nothing. -/
def escapeTable (e : UInt8) : UInt8 :=
  if e = ch '"' then ch '"'
  else if e = ch '/' then ch '/'
  else if e = ch '\\' then ch '\\'
  else if e = ch 'b' then 8
  else if e = ch 'f' then 12
  else if e = ch 'n' then 10
  else if e = ch 'r' then 13
  else if e = ch 't' then 9
  else 0

/-- `UTF8<>::Encode`, with its assertion. -/
def encode (codepoint : Nat) : Outcome Bytes :=
  if codepoint ≤ 0x7F then .ok [UInt8.ofNat codepoint]
  else if codepoint ≤ 0x7FF then
    .ok [UInt8.ofNat (0xC0 ||| codepoint >>> 6), UInt8.ofNat (0x80 ||| codepoint &&& 0x3F)]
  else if codepoint ≤ 0xFFFF then
    .ok [UInt8.ofNat (0xE0 ||| codepoint >>> 12), UInt8.ofNat (0x80 ||| codepoint >>> 6 &&& 0x3F),
      UInt8.ofNat (0x80 ||| codepoint &&& 0x3F)]
  else if codepoint ≤ 0x10FFFF then
    .ok [UInt8.ofNat (0xF0 ||| codepoint >>> 18), UInt8.ofNat (0x80 ||| codepoint >>> 12 &&& 0x3F),
      UInt8.ofNat (0x80 ||| codepoint >>> 6 &&& 0x3F), UInt8.ofNat (0x80 ||| codepoint &&& 0x3F)]
  else .error .assertion

/-- The code point of a surrogate pair. -/
def surrogatePair (high low : Nat) : Nat := ((high - 0xD800) <<< 10 ||| (low - 0xDC00)) + 0x10000

/-- The code point after `\u`: one unit, or the two of a pair. A low surrogate on its own goes
through. -/
def parseCodepoint (escapeOffset : Nat) (s : Bytes) : Outcome (Nat × Bytes) := do
  let (codepoint, s) ← parseHex4 escapeOffset s
  if 0xD800 ≤ codepoint ∧ codepoint ≤ 0xDBFF then
    match consumeAll [ch '\\', ch 'u'] s with
    | (_, false) => fail .stringUnicodeSurrogateInvalid escapeOffset
    | (s, true) =>
      let (codepoint2, s) ← parseHex4 escapeOffset s
      if codepoint2 < 0xDC00 ∨ 0xDFFF < codepoint2 then
        fail .stringUnicodeSurrogateInvalid escapeOffset
      else .ok (surrogatePair codepoint codepoint2, s)
  else .ok (codepoint, s)

/-- What stands after a backslash: the bytes it puts, and the stream after it. -/
def parseEscape (escapeOffset : Nat) (s : Bytes) : Outcome (Bytes × Bytes) :=
  if escapeTable (peek s) ≠ 0 then .ok ([escapeTable (peek s)], s.tail)
  else if peek s = ch 'u' then do
    let (codepoint, s) ← parseCodepoint escapeOffset s.tail
    let bytes ← encode codepoint
    .ok (bytes, s)
  else fail .stringEscapeInvalid escapeOffset

/-- The loop of `ParseStringToStream`, after the opening quotation mark. -/
def parseStringToStream (size : Nat) : Nat → Bytes → Outcome (Bytes × Bytes)
  | 0, _ => .error .fuel
  | fuel + 1, s =>
    let c := peek s
    if c = ch '\\' then do
      let (bytes, s) ← parseEscape (tell size s) s.tail
      let (more, s) ← parseStringToStream size fuel s
      .ok (bytes ++ more, s)
    else if c = ch '"' then .ok ([], s.tail)
    else if c < 0x20 then
      if c = 0 then fail .stringMissQuotationMark (tell size s)
      else fail .stringInvalidEncoding (tell size s)
    else do
      let (more, s) ← parseStringToStream size fuel s.tail
      .ok (c :: more, s)

/-- `ParseString`, from its opening quotation mark. -/
def parseString (size : Nat) (s : Bytes) : Outcome (Bytes × Bytes) :=
  parseStringToStream size s.length s.tail

/-! ## Numbers -/

/-- What the reader does with `double`s: a `uint64_t` as one, `d * 10 + digit`, `d > 0.0`, the
table of `Pow10` with the product and the quotient by an entry, `-d`, and whether it is more than
`numeric_limits<double>::max()`. -/
structure DoubleOps (D : Type) where
  zero : D
  ofUInt64 : UInt64 → D
  push : D → Nat → D
  positive : D → Bool
  timesPow10 : D → Fin 309 → D
  overPow10 : D → Fin 309 → D
  neg : D → D
  beyondMax : D → Bool

/-- The doubles of the machine. -/
def DoubleOps.ieee : DoubleOps Float where
  zero := 0
  ofUInt64 u := u.toFloat
  push d digit := d * 10 + Float.ofNat digit
  positive d := decide (0 < d)
  timesPow10 d k := d * Float.ofScientific 1 false k
  overPow10 d k := d / Float.ofScientific 1 false k
  neg d := -d
  beyondMax d := decide (1.7976931348623157e308 < d)

variable {D : Type} (ops : DoubleOps D)

def isDigit (c : UInt8) : Bool := ch '0' ≤ c && c ≤ ch '9'

/-- `c - '0'`. -/
def digitValue (c : UInt8) : Nat := c.toNat - 48

/-- A loop `while (s.Peek() >= '0' && s.Peek() <= '9')`. Its body takes the next digit, or breaks
before it: what it has come to, whether it broke, and what is left. -/
def whileDigit {α : Type} (body : α → Nat → Option α) : α → Bytes → α × Bool × Bytes
  | a, [] => (a, false, [])
  | a, c :: s =>
    if isDigit c then
      match body a (digitValue c) with
      | some a => whileDigit body a s
      | none => (a, true, c :: s)
    else (a, false, c :: s)

/-- The body for the digits of an integer, in an unsigned of `w` bits, with the number of digits: it
breaks at one that would take it past `limit * 10 + last`. -/
def pushDigit (w limit last : Nat) : Nat × Int → Nat → Option (Nat × Int)
  | (value, significandDigit), digit =>
    if limit ≤ value ∧ (value ≠ limit ∨ last < digit) then none
    else some ((value * 10 + digit) % 2 ^ w, significandDigit + 1)

/-- The loops for `unsigned i`: with a minus up to 2147483648, else up to 4294967295. -/
def readDigits32 (minus : Bool) : Nat × Int → Bytes → (Nat × Int) × Bool × Bytes :=
  whileDigit (if minus then pushDigit 32 214748364 8 else pushDigit 32 429496729 5)

/-- The loops for `uint64_t i64`: up to 9223372036854775808 or 18446744073709551615. -/
def readDigits64 (minus : Bool) : Nat × Int → Bytes → (Nat × Int) × Bool × Bytes :=
  whileDigit
    (if minus then pushDigit 64 0x0CCCCCCCCCCCCCCC 8 else pushDigit 64 0x1999999999999999 5)

/-- The loop for a big integer, which is a `double`. -/
def readDoubleDigits : D → Bytes → D × Bool × Bytes :=
  whileDigit fun d digit => some (ops.push d digit)

/-- The variables of `ParseNumber` after the integer. -/
structure Significand (D : Type) where
  i : Nat := 0
  i64 : Nat := 0
  use64bit : Bool := false
  d : D
  useDouble : Bool := false
  significandDigit : Int := 0
  rest : Bytes

/-- An integer that starts with one of `1` to `9`. -/
def readInteger (minus : Bool) (s : Bytes) : Significand D :=
  match readDigits32 minus (digitValue (peek s), 0) s.tail with
  | ((i, significandDigit), false, rest) => { i, d := ops.zero, significandDigit, rest }
  | ((i, significandDigit), true, rest) =>
    match readDigits64 minus (i, significandDigit) rest with
    | ((i64, significandDigit), false, rest) =>
      { i, i64, use64bit := true, d := ops.zero, significandDigit, rest }
    | ((i64, significandDigit), true, rest) =>
      let (d, _, rest) := readDoubleDigits ops (ops.ofUInt64 (.ofNat i64)) rest
      { i, i64, use64bit := true, d, useDouble := true, significandDigit, rest }

/-- "Parse int: zero / ( digit1-9 *DIGIT )". -/
def parseInteger (size : Nat) (minus : Bool) (s : Bytes) : Outcome (Significand D) :=
  if peek s = ch '0' then .ok { d := ops.zero, rest := s.tail }
  else if ch '1' ≤ peek s ∧ peek s ≤ ch '9' then .ok (readInteger ops minus s)
  else fail .valueInvalid (tell size s)

namespace Significand

/-- `use64bit ? i64 : i`. -/
def integer (v : Significand D) : Nat := if v.use64bit then v.i64 else v.i

/-- The same as a `double`, if it is not one yet. -/
def toDouble (v : Significand D) : D :=
  if v.useDouble then v.d else ops.ofUInt64 (.ofNat v.integer)

end Significand

/-- The loop for a fraction while `i64` holds the significand. -/
def readFraction64 : Nat × Int × Int → Bytes → (Nat × Int × Int) × Bool × Bytes :=
  whileDigit fun (i64, expFrac, significandDigit) digit =>
    if 0x1FFFFFFFFFFFFF < i64 then none
    else
      let i64 := (i64 * 10 + digit) % 2 ^ 64
      some (i64, expFrac - 1, if i64 ≠ 0 then significandDigit + 1 else significandDigit)

/-- The loop for a fraction of a `double`: digits after the seventeenth are dropped. -/
def readFractionDouble : D × Int × Int → Bytes → (D × Int × Int) × Bool × Bytes :=
  whileDigit fun (d, expFrac, significandDigit) digit =>
    if significandDigit < 17 then
      let d := ops.push d digit
      some (d, expFrac - 1, if ops.positive d then significandDigit + 1 else significandDigit)
    else some (d, expFrac, significandDigit)

/-- The digits of a fraction: the `double` they make of the significand, and `expFrac`. -/
def readFraction (v : Significand D) (s : Bytes) : D × Int × Bytes :=
  let (d, expFrac, significandDigit, s) :=
    if v.useDouble then (v.d, (0 : Int), v.significandDigit, s)
    else
      let ((i64, expFrac, significandDigit), _, s) :=
        readFraction64 (v.integer, 0, v.significandDigit) s
      (ops.ofUInt64 (.ofNat i64), expFrac, significandDigit, s)
  let ((d, expFrac, _), _, s) := readFractionDouble ops (d, expFrac, significandDigit) s
  (d, expFrac, s)

/-- "Parse frac = decimal-point 1*DIGIT": the variables after it, and `expFrac`. -/
def parseFraction (size : Nat) (v : Significand D) : Outcome (Significand D × Int) :=
  match consume (ch '.') v.rest with
  | none => .ok (v, 0)
  | some s =>
    if isDigit (peek s) then
      let (d, expFrac, rest) := readFraction ops v s
      .ok ({ v with d, useDouble := true, rest }, expFrac)
    else fail .numberMissFraction (tell size s)

/-- The loop over the digits of a negative exponent: past `maxExp` the rest of them is skipped. -/
def readExpMinus (maxExp : Int) : Int × Bool → Bytes → (Int × Bool) × Bool × Bytes :=
  whileDigit fun (exp, past) digit =>
    if past then some (exp, past)
    else some (exp * 10 + digit, maxExp < exp * 10 + digit)

/-- The loop over the digits of another exponent: past `maxExp` the number is too big. -/
def readExpPlus (maxExp : Int) : Int → Bytes → Int × Bool × Bytes :=
  whileDigit fun exp digit =>
    if maxExp < exp * 10 + digit then none else some (exp * 10 + digit)

/-- The sign of an exponent. -/
def parseExpSign (s : Bytes) : Bool × Bytes :=
  match consume (ch '+') s with
  | some s => (false, s)
  | none =>
    match consume (ch '-') s with
    | some s => (true, s)
    | none => (false, s)

/-- The digits of an exponent, at least one. -/
def readExponent (startOffset : Nat) (expFrac : Int) (expMinus : Bool) (s : Bytes) :
    Outcome (Int × Bytes) :=
  let exp : Int := digitValue (peek s)
  if expMinus then
    let ((exp, _), _, rest) :=
      readExpMinus ((expFrac + 2147483639).tdiv 10) (exp, false) s.tail
    .ok (-exp, rest)
  else
    match readExpPlus (308 - expFrac) exp s.tail with
    | (exp, false, rest) => .ok (exp, rest)
    | (_, true, _) => fail .numberTooBig startOffset

/-- `Consume(s, 'e') || Consume(s, 'E')`. -/
def consumeE (s : Bytes) : Option Bytes := (consume (ch 'e') s).or (consume (ch 'E') s)

/-- "Parse exp = e [ minus / plus ] 1*DIGIT": the variables after it, and `exp`. -/
def parseExponent (size startOffset : Nat) (v : Significand D) (expFrac : Int) :
    Outcome (Significand D × Int) :=
  match consumeE v.rest with
  | none => .ok (v, 0)
  | some s =>
    let (expMinus, s) := parseExpSign s
    if isDigit (peek s) then do
      let (exp, rest) ← readExponent startOffset expFrac expMinus s
      .ok ({ v with d := v.toDouble ops, useDouble := true, rest }, exp)
    else fail .numberMissExponent (tell size s)

/-- `Pow10`, with its assertion. -/
def pow10 (n : Int) : Outcome (Fin 309) :=
  if h : 0 ≤ n ∧ n ≤ 308 then .ok ⟨n.toNat, by omega⟩ else .error .assertion

/-- `FastPath`. -/
def fastPath (significand : D) (exp : Int) : Outcome D :=
  if exp < -308 then .ok ops.zero
  else if 0 ≤ exp then (pow10 exp).map (ops.timesPow10 significand)
  else (pow10 (-exp)).map (ops.overPow10 significand)

/-- `StrtodNormalPrecision`. -/
def strtodNormalPrecision (d : D) (p : Int) : Outcome D :=
  if p < -308 then do
    let d ← fastPath ops d (-308)
    fastPath ops d (p + 308)
  else fastPath ops d p

/-- "Finish parsing": the number the handler is told of. -/
def finishNumber (startOffset : Nat) (minus : Bool) (v : Significand D) (p : Int) :
    Outcome (Number D) :=
  if v.useDouble then do
    let d ← strtodNormalPrecision ops v.d p
    if ops.beyondMax d then fail .numberTooBig startOffset
    else .ok (.double (if minus then ops.neg d else d))
  else if v.use64bit then
    -- `~i64 + 1`, as an `int64_t`
    .ok (if minus then .int64 (.ofInt (-v.i64)) else .uint64 (.ofNat v.i64))
  else .ok (if minus then .int (.ofInt (-v.i)) else .uint (.ofNat v.i))

/-- "Parse minus". -/
def parseMinus (s : Bytes) : Bool × Bytes :=
  match consume (ch '-') s with
  | some s => (true, s)
  | none => (false, s)

/-- `ParseNumber`, up to the event. -/
def parseNumber (size : Nat) (s : Bytes) : Outcome (Number D × Bytes) := do
  let startOffset := tell size s
  let (minus, s) := parseMinus s
  let v ← parseInteger ops size minus s
  let (v, expFrac) ← parseFraction ops size v
  let (v, exp) ← parseExponent ops size startOffset v expFrac
  let n ← finishNumber ops startOffset minus v (exp + expFrac)
  .ok (n, v.rest)

/-! ## Values -/

/-- The calls of a handler. -/
inductive Event (D : Type)
  | null
  | bool (b : Bool)
  | number (n : Number D)
  | string (str : Bytes)
  | startObject
  | key (str : Bytes)
  | endObject (memberCount : Nat)
  | startArray
  | endArray (elementCount : Nat)

/-- A handler: its state after a call, and whether to go on; or an assertion of its own fails. -/
abbrev Handler (D σ : Type) := σ → Event D → Outcome (σ × Bool)

variable {σ : Type} (handler : Handler D σ)

/-- A call of the handler; at this offset the parse ends if the answer is `false`. -/
def Handler.call (st : σ) (e : Event D) (offset : Nat) : Outcome σ := do
  let (st, goOn) ← handler st e
  if goOn then .ok st else fail .termination offset

/-- `ParseNull`, `ParseTrue` and `ParseFalse`, from the first letter, which the caller has seen. -/
def parseLiteral (size : Nat) (word : Bytes) (e : Event D) (s : Bytes) (st : σ) :
    Outcome (Bytes × σ) :=
  match consumeAll word s.tail with
  | (s, true) => do
    let st ← handler.call st e (tell size s)
    .ok (s, st)
  | (s, false) => fail .valueInvalid (tell size s)

def parseNull (size : Nat) (s : Bytes) (st : σ) : Outcome (Bytes × σ) :=
  parseLiteral handler size [ch 'u', ch 'l', ch 'l'] .null s st

def parseTrue (size : Nat) (s : Bytes) (st : σ) : Outcome (Bytes × σ) :=
  parseLiteral handler size [ch 'r', ch 'u', ch 'e'] (.bool true) s st

def parseFalse (size : Nat) (s : Bytes) (st : σ) : Outcome (Bytes × σ) :=
  parseLiteral handler size [ch 'a', ch 'l', ch 's', ch 'e'] (.bool false) s st

/-- `ParseString` with its event: of a value, or of the name of a member. -/
def parseStringEvent (size : Nat) (isKey : Bool) (s : Bytes) (st : σ) : Outcome (Bytes × σ) := do
  let (str, s) ← parseString size s
  let st ← handler.call st (if isKey then .key str else .string str) (tell size s)
  .ok (s, st)

/-- `ParseNumber` with its event. -/
def parseNumberEvent (size : Nat) (s : Bytes) (st : σ) : Outcome (Bytes × σ) := do
  let (n, rest) ← parseNumber ops size s
  let st ← handler.call st (.number n) (tell size s)
  .ok (rest, st)

mutual

/-- `ParseValue`, in the first of these frames. -/
def parseValue (size : Nat) : Nat → Nat → Bytes → σ → Outcome (Bytes × σ)
  | 0, _, _, _ => .error .fuel
  | _ + 1, 0, _, _ => .error .overflow
  | fuel + 1, frames + 1, s, st =>
    let c := peek s
    if c = ch 'n' then parseNull handler size s st
    else if c = ch 't' then parseTrue handler size s st
    else if c = ch 'f' then parseFalse handler size s st
    else if c = ch '"' then parseStringEvent handler size false s st
    else if c = ch '{' then do
      -- `ParseObject`
      let s := s.tail
      let st ← handler.call st .startObject (tell size s)
      let s := skipWhitespace s
      match consume (ch '}') s with
      | some s =>
        let st ← handler.call st (.endObject 0) (tell size s)
        .ok (s, st)
      | none => parseMembers size fuel frames 0 s st
    else if c = ch '[' then do
      -- `ParseArray`
      let s := s.tail
      let st ← handler.call st .startArray (tell size s)
      let s := skipWhitespace s
      match consume (ch ']') s with
      | some s =>
        let st ← handler.call st (.endArray 0) (tell size s)
        .ok (s, st)
      | none => parseElements size fuel frames 0 s st
    else parseNumberEvent ops handler size s st
  termination_by structural fuel => fuel

/-- The loop of `ParseObject`, with the members before. -/
def parseMembers (size : Nat) : Nat → Nat → Nat → Bytes → σ → Outcome (Bytes × σ)
  | 0, _, _, _, _ => .error .fuel
  | fuel + 1, frames, memberCount, s, st =>
    if peek s ≠ ch '"' then fail .objectMissName (tell size s)
    else do
      let (s, st) ← parseStringEvent handler size true s st
      let s := skipWhitespace s
      match consume (ch ':') s with
      | none => fail .objectMissColon (tell size s)
      | some s =>
        let (s, st) ← parseValue size fuel frames (skipWhitespace s) st
        let s := skipWhitespace s
        let memberCount := memberCount + 1
        if peek s = ch ',' then
          parseMembers size fuel frames memberCount (skipWhitespace s.tail) st
        else if peek s = ch '}' then
          let st ← handler.call st (.endObject memberCount) (tell size s.tail)
          .ok (s.tail, st)
        else fail .objectMissCommaOrCurlyBracket (tell size s)
  termination_by structural fuel => fuel

/-- The loop of `ParseArray`, with the elements before. -/
def parseElements (size : Nat) : Nat → Nat → Nat → Bytes → σ → Outcome (Bytes × σ)
  | 0, _, _, _, _ => .error .fuel
  | fuel + 1, frames, elementCount, s, st => do
    let (s, st) ← parseValue size fuel frames s st
    let elementCount := elementCount + 1
    let s := skipWhitespace s
    match consume (ch ',') s with
    | some s => parseElements size fuel frames elementCount (skipWhitespace s) st
    | none =>
      match consume (ch ']') s with
      | some s =>
        let st ← handler.call st (.endArray elementCount) (tell size s)
        .ok (s, st)
      | none => fail .arrayMissCommaOrSquareBracket (tell size s)
  termination_by structural fuel => fuel

end

/-- `GenericReader::Parse`, on a stream of a text of this size and a call stack of these frames. -/
def parse (size frames : Nat) (s : Bytes) (st : σ) : Outcome σ :=
  let s := skipWhitespace s
  if peek s = 0 then fail .documentEmpty (tell size s)
  else do
    let (s, st) ← parseValue ops handler size (2 * s.length + 1) frames s st
    let s := skipWhitespace s
    if peek s ≠ 0 then fail .documentRootNotSingular (tell size s) else .ok st

end PeerNode.Rapidjson
