import PeerNode.Rapidjson.Document
import PeerNode.Rapidjson.Syntax

/-!
# Blanks and strings

Two of the three tokens of the reader. Blanks are skipped in blocks of sixteen and still one by one
(`skipWhitespace_eq`): a NUL in a block ends the scan, and it is no blank.

Between the quotation marks of a string the reader takes just the `Chars` of the grammar, up to the
first quotation mark that is not escaped (`parseString_lexes`, `parseString_chars`). Its tables are
those of the grammar, each by a lemma of its own: the blanks, the hexadecimal digits, the letters of
the escapes, the code point of a pair and the bytes of a code point.

`Delivers` is how the reader's functions are specified: a result of the kind that is wanted, or a
parse error with its code, at a place in the text. Neither a failed assertion nor the end of the
fuel delivers anything.
-/

namespace PeerNode.Rapidjson

/-! ## Outcomes -/

/-- A parse error, at a place in a text of this size. -/
def Stop.Coded (size : Nat) (stop : Stop) : Prop :=
  ∃ code offset, stop = .error code offset ∧ offset ≤ size

/-- A result with this property, or a parse error. -/
def Delivers {α : Type} (size : Nat) (Q : α → Prop) : Outcome α → Prop
  | .ok a => Q a
  | .error stop => stop.Coded size

namespace Delivers

variable {α β : Type} {size : Nat} {P : α → Prop} {Q : β → Prop}

theorem fail {code : ParseErrorCode} {offset : Nat} (inside : offset ≤ size) :
    Delivers size P (Rapidjson.fail code offset) :=
  ⟨code, offset, rfl, inside⟩

/-- One after the other. -/
theorem bind {o : Outcome α} {f : α → Outcome β} (first : Delivers size P o)
    (next : ∀ a, P a → Delivers size Q (f a)) : Delivers size Q (o >>= f) := by
  cases o with
  | ok a => exact next a first
  | error stop => exact first

theorem mono {o : Outcome α} {P' : α → Prop} (h : Delivers size P o)
    (weaker : ∀ a, P a → P' a) : Delivers size P' o := by
  cases o with
  | ok a => exact weaker a h
  | error stop => exact h

end Delivers

theorem tell_le (size : Nat) (s : Bytes) : tell size s ≤ size := Nat.sub_le _ _

/-! ## Bytes that are there -/

theorem consume_cons (c : UInt8) (s : Bytes) : consume c (c :: s) = some s := by
  rw [consume, if_pos (show peek (c :: s) = c from rfl)]
  rfl

theorem eq_cons_of_consume {c : UInt8} {s r : Bytes} (h : consume c s = some r)
    (some : (c != 0) = true) : s = c :: r := by
  unfold consume at h
  split at h
  · next first =>
    cases s with
    | nil => exact absurd first.symm (bne_iff_ne.mp some)
    | cons c' s =>
      cases h
      exact congrArg (· :: _) first
  · cases h

theorem consume_of_ne {c : UInt8} {s : Bytes} (other : peek s ≠ c) : consume c s = none :=
  if_neg other

theorem consumeAll_append (word r : Bytes) : consumeAll word (word ++ r) = (r, true) := by
  induction word with
  | nil => rfl
  | cons c word ih =>
    rw [List.cons_append, consumeAll, consume_cons]
    exact ih

theorem consumeAll_ok {word s r : Bytes} (some : word.all (· != 0) = true)
    (h : consumeAll word s = (r, true)) : s = word ++ r := by
  induction word generalizing s with
  | nil =>
    cases h
    rfl
  | cons c word ih =>
    rw [List.all_cons, Bool.and_eq_true] at some
    unfold consumeAll at h
    cases first : consume c s with
    | none =>
      rw [first] at h
      cases h
    | some s' =>
      rw [first] at h
      rw [eq_cons_of_consume first some.1, ih some.2 h]
      rfl

/-! ## Blanks -/

theorem isWhitespace_iff {c : UInt8} : isWhitespace c = true ↔ IsBlank c := by
  unfold isWhitespace IsBlank
  simp only [Bool.or_eq_true, decide_eq_true_eq, or_assoc]
  rfl

/-- A block ends at its first byte that is no blank. -/
theorem firstOther_eq (block : Bytes) :
    firstOther block = (block.takeWhile isWhitespace).length := by
  unfold firstOther
  induction block with
  | nil => rfl
  | cons c block ih =>
    by_cases nul : c = 0
    · subst nul
      rfl
    · rw [List.takeWhile_cons, if_pos (by simpa using nul), List.takeWhile_cons,
        List.takeWhile_cons]
      by_cases blank : isWhitespace c = true
      · rw [if_pos blank, if_pos blank, List.length_cons, List.length_cons, ih]
      · rw [if_neg blank, if_neg blank]

/-- Whole blocks, and what is left. -/
theorem skipBlocks_eq (blocks : Nat) {s : Bytes} (enough : 16 * blocks ≤ s.length) :
    skipBlocks blocks s = s.dropWhile isWhitespace := by
  induction blocks generalizing s with
  | zero => rfl
  | succ blocks ih =>
    have block : (s.take 16).length = 16 := List.length_take_of_le (by omega)
    have parts := @List.takeWhile_append_dropWhile _ isWhitespace (s.take 16)
    have whole : s = (s.take 16).takeWhile isWhitespace
        ++ ((s.take 16).dropWhile isWhitespace ++ s.drop 16) := by
      rw [← List.append_assoc, parts, List.take_append_drop]
    have drops : s.dropWhile isWhitespace = if ((s.take 16).dropWhile isWhitespace).isEmpty
        then (s.drop 16).dropWhile isWhitespace
        else (s.take 16).dropWhile isWhitespace ++ s.drop 16 := by
      conv => lhs; rw [← List.take_append_drop 16 s]
      exact List.dropWhile_append
    have lengths := congrArg List.length parts
    rw [List.length_append, block] at lengths
    rw [skipBlocks, firstOther_eq, drops]
    cases left : (s.take 16).dropWhile isWhitespace with
    | nil =>
      rw [left, List.length_nil] at lengths
      rw [if_neg (by omega)]
      exact ih (by rw [List.length_drop]; omega)
    | cons c rest =>
      rw [left, List.length_cons] at lengths
      rw [left] at whole
      rw [if_pos (by omega)]
      exact (congrArg (List.drop _) whole).trans List.drop_left

/-- **Sixteen at a time or one by one.** -/
theorem skipWhitespace_eq (s : Bytes) : skipWhitespace s = s.dropWhile isWhitespace := by
  cases s with
  | nil => rfl
  | cons c s =>
    rw [skipWhitespace, List.dropWhile_cons]
    by_cases blank : isWhitespace c = true
    · rw [if_pos blank, if_pos blank]
      exact skipBlocks_eq _ (Nat.mul_div_le s.length 16)
    · rw [if_neg blank, if_neg blank]

theorem skipWhitespace_split (s : Bytes) : ∃ b, Blanks b ∧ s = b ++ skipWhitespace s := by
  have blanks : Blanks (s.takeWhile isWhitespace) := fun c mem =>
    isWhitespace_iff.mp (List.all_eq_true.mp List.all_takeWhile c mem)
  refine ⟨s.takeWhile isWhitespace, blanks, ?_⟩
  rw [skipWhitespace_eq]
  exact List.takeWhile_append_dropWhile.symm

theorem skipWhitespace_blanks {b r : Bytes} (blanks : Blanks b)
    (stops : isWhitespace (peek r) = false) : skipWhitespace (b ++ r) = r := by
  rw [skipWhitespace_eq,
    List.dropWhile_append_of_pos fun c mem => isWhitespace_iff.mpr (blanks c mem)]
  cases r with
  | nil => rfl
  | cons c r => exact List.dropWhile_cons_of_neg (Bool.eq_false_iff.mp stops)

theorem length_skipWhitespace_le (s : Bytes) : (skipWhitespace s).length ≤ s.length := by
  rw [skipWhitespace_eq]
  exact (List.dropWhile_sublist _).length_le

/-! ## Escapes -/

theorem hexValue_iff {c : UInt8} {d : Nat} : hexValue c = some d ↔ HexDigit d c := by
  constructor
  · intro value
    have back : ∀ {n : Nat}, c.toNat = n → UInt8.ofNat n = c := by
      rintro n rfl
      exact UInt8.ofNat_toNat
    unfold hexValue at value
    simp only [UInt8.le_iff_toNat_le] at value
    split at value
    · next range =>
      cases value
      have low : 48 ≤ c.toNat := range.1
      have high : c.toNat ≤ 57 := range.2
      have digit := @HexDigit.decimal (c.toNat - 48) (by omega)
      rwa [back (by omega)] at digit
    · split at value
      · next range =>
        cases value
        have low : 65 ≤ c.toNat := range.1
        have high : c.toNat ≤ 70 := range.2
        have digit := @HexDigit.upper (c.toNat - 55) (by omega) (by omega)
        rwa [back (by omega)] at digit
      · split at value
        · next range =>
          cases value
          have low : 97 ≤ c.toNat := range.1
          have high : c.toNat ≤ 102 := range.2
          have digit := @HexDigit.lower (c.toNat - 87) (by omega) (by omega)
          rwa [back (by omega)] at digit
        · cases value
  · intro digit
    have values : (∀ k < 10, hexValue (.ofNat (0x30 + k)) = some k) ∧
        (∀ k < 6, hexValue (.ofNat (0x41 + k)) = some (10 + k)) ∧
        ∀ k < 6, hexValue (.ofNat (0x61 + k)) = some (10 + k) := by decide
    have back : 10 ≤ d → 10 + (d - 10) = d := Nat.add_sub_of_le
    cases digit with
    | decimal small => exact values.1 d small
    | upper big small =>
      exact (values.2.1 (d - 10) (by omega)).trans (congrArg some (back big))
    | lower big small =>
      exact (values.2.2 (d - 10) (by omega)).trans (congrArg some (back big))

theorem HexDigit.lt {d : Nat} {c : UInt8} (digit : HexDigit d c) : d < 16 := by
  cases digit with
  | decimal small => omega
  | upper _ small => exact small
  | lower _ small => exact small

theorem Unit16.lt {u : Nat} {ds : Bytes} (unit : Unit16 u ds) : u < 0x10000 := by
  cases unit with
  | digits first second third fourth =>
    have := first.lt
    have := second.lt
    have := third.lt
    have := fourth.lt
    omega

theorem parseHex_digit (escapeOffset k value : Nat) {d : Nat} {c : UInt8} (digit : HexDigit d c)
    (r : Bytes) :
    parseHex escapeOffset (k + 1) value (c :: r) = parseHex escapeOffset k (value * 16 + d) r := by
  have first : hexValue (peek (c :: r)) = some d := hexValue_iff.mpr digit
  rw [parseHex, first]
  rfl

/-- Four digits are a unit. -/
theorem parseHex4_unit (escapeOffset : Nat) {u : Nat} {ds : Bytes} (unit : Unit16 u ds)
    (r : Bytes) : parseHex4 escapeOffset (ds ++ r) = .ok (u, r) := by
  cases unit with
  | @digits a b c d ca cb cc cd first second third fourth =>
    have value : (((0 * 16 + a) * 16 + b) * 16 + c) * 16 + d
        = 0x1000 * a + 0x100 * b + 0x10 * c + d := by omega
    show parseHex escapeOffset 4 0 (ca :: cb :: cc :: cd :: r) = _
    rw [parseHex_digit _ 3 0 first, parseHex_digit _ 2 _ second, parseHex_digit _ 1 _ third,
      parseHex_digit _ 0 _ fourth, value]
    rfl

/-- The loop of `ParseHex4` goes on after a digit, and fails at anything else. -/
theorem parseHex_lexes {size escapeOffset : Nat} (inside : escapeOffset ≤ size) {k value : Nat}
    {s : Bytes} {Q : Nat × Bytes → Prop}
    (next : ∀ d c r, HexDigit d c → s = c :: r →
      Delivers size Q (parseHex escapeOffset k (value * 16 + d) r)) :
    Delivers size Q (parseHex escapeOffset (k + 1) value s) := by
  rw [parseHex]
  cases first : hexValue (peek s) with
  | none => exact .fail inside
  | some d =>
    cases s with
    | nil => cases first
    | cons c r => exact next d c r (hexValue_iff.mp first) rfl

theorem parseHex4_lexes (size escapeOffset : Nat) (inside : escapeOffset ≤ size) (s : Bytes) :
    Delivers size (fun x => ∃ ds, Unit16 x.1 ds ∧ s = ds ++ x.2) (parseHex4 escapeOffset s) := by
  refine parseHex_lexes inside fun a ca s₁ first rest₁ => ?_
  refine parseHex_lexes inside fun b cb s₂ second rest₂ => ?_
  refine parseHex_lexes inside fun c cc s₃ third rest₃ => ?_
  refine parseHex_lexes inside fun d cd s₄ fourth rest₄ => ?_
  have value : (((0 * 16 + a) * 16 + b) * 16 + c) * 16 + d
      = 0x1000 * a + 0x100 * b + 0x10 * c + d := by omega
  rw [value]
  refine ⟨[ca, cb, cc, cd], .digits first second third fourth, ?_⟩
  rw [rest₁, rest₂, rest₃, rest₄]
  rfl

/-! ### UTF-8 -/

theorem or_eq_add {i b : Nat} (a : Nat) (small : b < 2 ^ i) : 2 ^ i * a ||| b = b + 2 ^ i * a := by
  rw [← Nat.two_pow_add_eq_or_of_lt small, Nat.add_comm]

/-- **A code point is put as its UTF-8.** -/
theorem encode_eq {v : Nat} (valid : v ≤ 0x10FFFF) : encode v = .ok (utf8Bytes v) := by
  have low : ∀ n, (0x80 ||| n &&& 0x3F) = 0x80 + n % 0x40 := by
    intro n
    rw [show n &&& 0x3F = n % 2 ^ 6 from Nat.and_two_pow_sub_one_eq_mod n 6, Nat.add_comm]
    exact @or_eq_add 6 _ 2 (Nat.mod_lt _ (by decide))
  unfold encode utf8Bytes
  simp only [low, Nat.shiftRight_eq_div_pow]
  by_cases one : v < 0x80
  · rw [if_pos (Nat.le_of_lt_succ one), if_pos one]
  rw [if_neg (by omega), if_neg one]
  by_cases two : v < 0x800
  · have lead : (0xC0 ||| v / 2 ^ 6) = 0xC0 + v / 0x40 := by
      rw [Nat.add_comm]
      exact @or_eq_add 5 _ 6 (by omega)
    rw [if_pos (Nat.le_of_lt_succ two), if_pos two, lead]
  rw [if_neg (by omega), if_neg two]
  by_cases three : v < 0x10000
  · have lead : (0xE0 ||| v / 2 ^ 12) = 0xE0 + v / 0x1000 := by
      rw [Nat.add_comm]
      exact @or_eq_add 4 _ 14 (by omega)
    rw [if_pos (Nat.le_of_lt_succ three), if_pos three, lead]
  · have lead : (0xF0 ||| v / 2 ^ 18) = 0xF0 + v / 0x40000 := by
      rw [Nat.add_comm]
      exact @or_eq_add 3 _ 30 (by omega)
    rw [if_neg (by omega), if_neg three, if_pos valid, lead]

/-- The code point of a pair, within Unicode. -/
theorem surrogatePair_eq {high low : Nat} (isHigh : IsHigh high) (isLow : IsLow low) :
    surrogatePair high low = pairPoint high low ∧ pairPoint high low ≤ 0x10FFFF := by
  obtain ⟨-, top⟩ := isHigh
  obtain ⟨-, top'⟩ := isLow
  have same : surrogatePair high low = pairPoint high low := by
    unfold surrogatePair pairPoint
    rw [Nat.shiftLeft_eq, Nat.mul_comm, or_eq_add _ (by omega)]
    omega
  refine ⟨same, ?_⟩
  unfold pairPoint
  omega

/-! ### What stands after a backslash -/

/-- The letters of the table are those of the grammar. -/
theorem escapeTable_iff {c e : UInt8} : escapeTable e = c ∧ c ≠ 0 ↔ Letter c e := by
  constructor
  · rintro ⟨rfl, known⟩
    unfold escapeTable at known ⊢
    split
    · next same =>
      subst same
      exact .quotation
    split
    · next same =>
      subst same
      exact .solidus
    split
    · next same =>
      subst same
      exact .backslash
    split
    · next same =>
      subst same
      exact .backspace
    split
    · next same =>
      subst same
      exact .formFeed
    split
    · next same =>
      subst same
      exact .lineFeed
    split
    · next same =>
      subst same
      exact .carriageReturn
    split
    · next same =>
      subst same
      exact .tab
    · next quotation solidus backslash b f n r t =>
      rw [if_neg quotation, if_neg solidus, if_neg backslash, if_neg b, if_neg f, if_neg n,
        if_neg r, if_neg t] at known
      exact absurd rfl known
  · intro letter
    cases letter <;> exact ⟨rfl, by decide⟩

theorem parseCodepoint_unit (escapeOffset : Nat) {u : Nat} {ds : Bytes} (unit : Unit16 u ds)
    (single : ¬ IsHigh u) (r : Bytes) :
    parseCodepoint escapeOffset (ds ++ r) = .ok (u, r) := by
  rw [parseCodepoint, parseHex4_unit _ unit]
  exact if_neg single

theorem parseCodepoint_pair (escapeOffset : Nat) {u u' : Nat} {ds ds' : Bytes}
    (high : Unit16 u ds) (low : Unit16 u' ds') (isHigh : IsHigh u) (isLow : IsLow u')
    (r : Bytes) :
    parseCodepoint escapeOffset (ds ++ ch '\\' :: ch 'u' :: (ds' ++ r))
      = .ok (surrogatePair u u', r) := by
  have within : ¬ (u' < 0xDC00 ∨ 0xDFFF < u') := by
    obtain ⟨_, _⟩ := isLow
    omega
  rw [parseCodepoint, parseHex4_unit _ high]
  refine (if_pos isHigh).trans ?_
  have both : consumeAll [ch '\\', ch 'u'] (ch '\\' :: ch 'u' :: (ds' ++ r)) = (ds' ++ r, true) :=
    consumeAll_append [ch '\\', ch 'u'] (ds' ++ r)
  rw [both]
  show (parseHex4 escapeOffset (ds' ++ r) >>= _) = _
  rw [parseHex4_unit _ low]
  exact if_neg within

theorem parseEscape_escape (escapeOffset : Nat) {bytes t : Bytes} (escape : Escape bytes t)
    (r : Bytes) : parseEscape escapeOffset (t ++ r) = .ok (bytes, r) := by
  have code : ∀ {s : Bytes} {codepoint : Nat},
      parseCodepoint escapeOffset s = .ok (codepoint, r) → codepoint ≤ 0x10FFFF →
        parseEscape escapeOffset (ch 'u' :: s) = .ok (utf8Bytes codepoint, r) := by
    intro s codepoint read valid
    have first : peek (ch 'u' :: s) = ch 'u' := rfl
    rw [parseEscape, first, if_neg (by decide), if_pos rfl, List.tail_cons, read]
    show (do let bytes ← encode codepoint; Except.ok (bytes, r)) = _
    rw [encode_eq valid]
    rfl
  cases escape with
  | letter known =>
    obtain ⟨rfl, known⟩ := escapeTable_iff.mpr known
    exact if_pos known
  | unicode unit single =>
    have small := unit.lt
    exact code (parseCodepoint_unit _ unit single r) (by omega)
  | @pair u u' ds ds' high low isHigh isLow =>
    obtain ⟨same, valid⟩ := surrogatePair_eq isHigh isLow
    have both : ch 'u' :: (ds ++ ch '\\' :: ch 'u' :: ds') ++ r
        = ch 'u' :: (ds ++ ch '\\' :: ch 'u' :: (ds' ++ r)) := by
      rw [List.cons_append, List.append_assoc, List.cons_append, List.cons_append]
    rw [both, ← same]
    exact code (parseCodepoint_pair _ high low isHigh isLow r) (same ▸ valid)

theorem parseCodepoint_lexes (size escapeOffset : Nat) (inside : escapeOffset ≤ size)
    (s : Bytes) :
    Delivers size (fun x => x.1 ≤ 0x10FFFF ∧ ∃ t, Escape (utf8Bytes x.1) (ch 'u' :: t) ∧
        s = t ++ x.2)
      (parseCodepoint escapeOffset s) := by
  refine (parseHex4_lexes size escapeOffset inside s).bind ?_
  rintro ⟨u, s'⟩ ⟨ds, unit, rest⟩
  have small := unit.lt
  dsimp only at small unit rest ⊢
  split
  · next isHigh =>
    cases both : consumeAll [ch '\\', ch 'u'] s' with
    | mk s'' found =>
      cases found with
      | false => exact .fail inside
      | true =>
        have word := consumeAll_ok rfl both
        refine (parseHex4_lexes size escapeOffset inside s'').bind ?_
        rintro ⟨u', r⟩ ⟨ds', unit', rest'⟩
        dsimp only at unit' rest' ⊢
        split
        · exact .fail inside
        · next within =>
          have isLow : IsLow u' := by
            unfold IsLow
            omega
          obtain ⟨same, valid⟩ := surrogatePair_eq isHigh isLow
          rw [same]
          refine ⟨valid, _, .pair unit unit' isHigh isLow, ?_⟩
          rw [rest, word, rest']
          simp only [List.append_assoc, List.cons_append, List.nil_append]
  · next single => exact ⟨by omega, ds, .unicode unit single, rest⟩

/-- **What is read after a backslash is an escape**, and its code point can be put. -/
theorem parseEscape_lexes (size escapeOffset : Nat) (inside : escapeOffset ≤ size) (s : Bytes) :
    Delivers size (fun x => ∃ t, Escape x.1 t ∧ s = t ++ x.2) (parseEscape escapeOffset s) := by
  unfold parseEscape
  cases s with
  | nil => exact .fail inside
  | cons c s =>
    split
    · next known => exact ⟨[c], .letter (escapeTable_iff.mp ⟨rfl, known⟩), rfl⟩
    · split
      · next isU =>
        obtain rfl : c = ch 'u' := isU
        refine (parseCodepoint_lexes size escapeOffset inside s).bind ?_
        rintro ⟨codepoint, r⟩ ⟨valid, t, escape, rest⟩
        dsimp only at valid escape rest ⊢
        rw [encode_eq valid]
        exact ⟨_, escape, congrArg _ rest⟩
      · exact .fail inside

/-! ## Strings -/

theorem parseStringToStream_chars (size : Nat) {str cs : Bytes} (chars : Chars str cs) (fuel : Nat)
    (r : Bytes) (enough : cs.length < fuel) :
    parseStringToStream size fuel (cs ++ ch '"' :: r) = .ok (str, r) := by
  induction chars generalizing fuel with
  | nil =>
    obtain ⟨fuel, rfl⟩ := Nat.exists_eq_add_of_lt enough
    rfl
  | @plain c str cs printable quotation backslash _ ih =>
    obtain ⟨fuel, rfl⟩ := Nat.exists_eq_add_of_lt enough
    have control : ¬ c < 0x20 := UInt8.not_lt.mpr printable
    have rest := ih (cs.length + 1 + fuel) (by omega)
    have first : peek (c :: (cs ++ ch '"' :: r)) = c := rfl
    rw [List.cons_append, List.length_cons, parseStringToStream]
    simp only [first, if_neg control, if_neg quotation, if_neg backslash, List.tail_cons, rest]
    rfl
  | @escape bytes t str cs escape _ ih =>
    obtain ⟨fuel, rfl⟩ := Nat.exists_eq_add_of_lt enough
    rw [List.length_cons, List.length_append] at *
    have rest := ih (t.length + cs.length + 1 + fuel) (by omega)
    have first : peek (ch '\\' :: (t ++ cs ++ ch '"' :: r)) = ch '\\' := rfl
    rw [List.cons_append, parseStringToStream]
    simp only [first, if_true, List.tail_cons]
    rw [List.append_assoc, parseEscape_escape _ escape]
    show (parseStringToStream size _ (cs ++ ch '"' :: r) >>= _) = _
    rw [rest]
    rfl

/-- **A string is read as what stands between its quotation marks.** -/
theorem parseString_chars (size : Nat) {str cs : Bytes} (chars : Chars str cs) (r : Bytes) :
    parseString size (quoted cs ++ r) = .ok (str, r) := by
  rw [quoted_append, parseString]
  refine parseStringToStream_chars size chars _ r ?_
  rw [List.length_cons, List.length_append]
  omega

theorem parseStringToStream_lexes (size fuel : Nat) {s : Bytes} (enough : s.length < fuel) :
    Delivers size (fun x => ∃ cs, Chars x.1 cs ∧ s = cs ++ ch '"' :: x.2)
      (parseStringToStream size fuel s) := by
  induction fuel generalizing s with
  | zero => exact absurd enough (Nat.not_lt_zero _)
  | succ fuel ih =>
    rw [parseStringToStream]
    cases s with
    | nil => exact .fail (tell_le _ _)
    | cons c s =>
      have first : peek (c :: s) = c := rfl
      simp only [first, List.tail_cons]
      split
      · next backslash =>
        refine (parseEscape_lexes size _ (tell_le _ _) s).bind ?_
        rintro ⟨bytes, s'⟩ ⟨t, escape, rest⟩
        have shorter : s.length = t.length + s'.length := by rw [rest, List.length_append]
        rw [List.length_cons] at enough
        have enough' : s'.length < fuel := by omega
        refine (ih enough').bind ?_
        rintro ⟨more, r⟩ ⟨cs, chars, rest'⟩
        refine ⟨ch '\\' :: (t ++ cs), .escape escape chars, ?_⟩
        rw [backslash, rest, rest', List.cons_append, List.append_assoc]
      · next backslash =>
        split
        · next quotation => exact ⟨[], .nil, congrArg (· :: s) quotation⟩
        · next quotation =>
          split
          · split
            · exact .fail (tell_le _ _)
            · exact .fail (tell_le _ _)
          · next control =>
            refine (ih (Nat.lt_of_succ_lt_succ enough)).bind ?_
            rintro ⟨more, r⟩ ⟨cs, chars, rest⟩
            exact ⟨c :: cs, .plain (UInt8.not_lt.mp control) quotation backslash chars,
              congrArg (c :: ·) rest⟩

/-- **What is read as a string is one**, up to the first quotation mark that is not escaped. -/
theorem parseString_lexes (size : Nat) {s : Bytes} (opens : peek s = ch '"') :
    Delivers size (fun x => ∃ cs, Chars x.1 cs ∧ s = quoted cs ++ x.2) (parseString size s) := by
  cases s with
  | nil => exact absurd opens (by decide)
  | cons c s =>
    obtain rfl : c = ch '"' := opens
    refine (parseStringToStream_lexes size _ (Nat.lt_succ_self s.length)).mono ?_
    rintro ⟨str, r⟩ ⟨cs, chars, rest⟩
    refine ⟨cs, chars, ?_⟩
    rw [quoted_append, ← rest]

end PeerNode.Rapidjson
