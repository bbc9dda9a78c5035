import PeerNode.Rapidjson.Lexical

/-!
# The text of a number

What `ParseNumber` reads is a `NumberToken`: an integer that no zero leads, a fraction or none, an
exponent or none. The reader takes the longest such token there is (`parseNumber_lexes`) and what it
makes of it depends on the token alone (`parseNumber_token`), wherever it stands.
-/

namespace PeerNode.Rapidjson

variable {D : Type} {ops : DoubleOps D}

/-! ## Runs of digits -/

/-- What comes next is no digit. -/
def Ends (r : Bytes) : Prop := isDigit (peek r) = false

theorem isDigit_iff {c : UInt8} : isDigit c = true ↔ IsDigit c := by
  unfold isDigit IsDigit
  rw [Bool.and_eq_true, decide_eq_true_eq, decide_eq_true_eq]
  rfl

namespace Digits

theorem isDigit_bytes (ds : Digits) : ∀ c ∈ ds.bytes, isDigit c = true :=
  fun c mem => isDigit_iff.mpr (ds.digits c mem)

theorem peek_append (ds : Digits) (r : Bytes) : peek (ds.bytes ++ r) = peek ds.bytes := by
  obtain ⟨bytes, nonempty, -⟩ := ds
  cases bytes with
  | nil => exact absurd rfl nonempty
  | cons c s => rfl

theorem tail_append (ds : Digits) (r : Bytes) :
    (ds.bytes ++ r).tail = ds.bytes.tail ++ r :=
  List.tail_append_of_ne_nil ds.nonempty

theorem isDigit_peek (ds : Digits) : isDigit (peek ds.bytes) = true := by
  obtain ⟨bytes, nonempty, digits⟩ := ds
  cases bytes with
  | nil => exact absurd rfl nonempty
  | cons c s => exact isDigit_iff.mpr (digits c List.mem_cons_self)

theorem digits_tail (ds : Digits) : ∀ c ∈ ds.bytes.tail, isDigit c = true :=
  fun c mem => ds.isDigit_bytes c (List.mem_of_mem_tail mem)

theorem head?_bytes (ds : Digits) : ds.bytes.head? = some (peek ds.bytes) := by
  obtain ⟨bytes, nonempty, -⟩ := ds
  cases bytes with
  | nil => exact absurd rfl nonempty
  | cons c s => rfl

end Digits

/-- A text that starts with a digit starts with a run of them, after which there is none. -/
theorem digits_split {s : Bytes} (first : isDigit (peek s) = true) :
    ∃ (ds : Digits) (r : Bytes), s = ds.bytes ++ r ∧ Ends r := by
  have nonempty : s.takeWhile isDigit ≠ [] := by
    cases s with
    | nil => exact absurd first (by decide)
    | cons c s =>
      rw [List.takeWhile_cons, if_pos (show isDigit c = true from first)]
      exact List.cons_ne_nil _ _
  have digits : ∀ c ∈ s.takeWhile isDigit, IsDigit c := fun c mem =>
    isDigit_iff.mp (List.all_eq_true.mp List.all_takeWhile c mem)
  refine ⟨⟨_, nonempty, digits⟩, s.dropWhile isDigit, List.takeWhile_append_dropWhile.symm, ?_⟩
  unfold Ends
  cases rest : s.dropWhile isDigit with
  | nil => rfl
  | cons c r =>
    have last := List.head?_dropWhile_not isDigit s
    rwa [rest] at last

/-! ## Loops over digits -/

section Loop

variable {α : Type} (body : α → Nat → Option α)

/-- A loop reads no further than the digits. -/
theorem whileDigit_append {r : Bytes} (ends : Ends r) (a : α) (ds : Bytes) :
    whileDigit body a (ds ++ r)
      = ((whileDigit body a ds).1, (whileDigit body a ds).2.1,
        (whileDigit body a ds).2.2 ++ r) := by
  induction ds generalizing a with
  | nil =>
    cases r with
    | nil => rfl
    | cons c r =>
      have other : isDigit c = false := ends
      simp [whileDigit, other]
  | cons c ds ih =>
    rw [List.cons_append, whileDigit, whileDigit]
    by_cases digit : isDigit c = true
    · rw [if_pos digit, if_pos digit]
      cases body a (digitValue c) with
      | none => rfl
      | some a => exact ih a
    · rw [if_neg digit, if_neg digit]
      rfl

/-- What it leaves of digits is digits, and nothing if it did not break. -/
theorem whileDigit_rest {ds : Bytes} (digits : ∀ c ∈ ds, isDigit c = true) (a : α) :
    (∀ c ∈ (whileDigit body a ds).2.2, isDigit c = true) ∧
      ((whileDigit body a ds).2.1 = false → (whileDigit body a ds).2.2 = []) := by
  induction ds generalizing a with
  | nil => exact ⟨digits, fun _ => rfl⟩
  | cons c ds ih =>
    rw [whileDigit, if_pos (digits c List.mem_cons_self)]
    cases body a (digitValue c) with
    | none => exact ⟨digits, nofun⟩
    | some a => exact ih (fun c mem => digits c (List.mem_cons_of_mem _ mem)) a

/-- A body that never breaks takes them all. -/
theorem whileDigit_all (goesOn : ∀ a digit, body a digit ≠ none) {ds : Bytes}
    (digits : ∀ c ∈ ds, isDigit c = true) (a : α) : (whileDigit body a ds).2.2 = [] := by
  induction ds generalizing a with
  | nil => rfl
  | cons c ds ih =>
    rw [whileDigit, if_pos (digits c List.mem_cons_self)]
    cases next : body a (digitValue c) with
    | none => exact absurd next (goesOn a _)
    | some a => exact ih (fun c mem => digits c (List.mem_cons_of_mem _ mem)) a

/-- What every turn keeps, the loop keeps. -/
theorem whileDigit_keeps {P : α → Prop}
    (keep : ∀ a digit a', P a → body a digit = some a' → P a') (ds : Bytes) {a : α} (h : P a) :
    P (whileDigit body a ds).1 := by
  induction ds generalizing a with
  | nil => exact h
  | cons c ds ih =>
    rw [whileDigit]
    split
    · split
      · next a' next => exact ih (keep a _ a' h next)
      · exact h
    · exact h

end Loop

/-! ## The phases, with more text after them -/

theorem readInteger_append {r : Bytes} (ends : Ends r) (minus : Bool) (ds : Digits) :
    readInteger ops minus (ds.bytes ++ r)
      = { readInteger ops minus ds.bytes with
          rest := (readInteger ops minus ds.bytes).rest ++ r } := by
  unfold readInteger
  rw [ds.peek_append, ds.tail_append, readDigits32, whileDigit_append _ ends]
  obtain ⟨⟨i, k⟩, broke, rest⟩ :=
    whileDigit (if minus then pushDigit 32 214748364 8 else pushDigit 32 429496729 5)
      (digitValue (peek ds.bytes), 0) ds.bytes.tail
  cases broke with
  | false => rfl
  | true =>
    simp only [readDigits64, whileDigit_append _ ends _ rest]
    obtain ⟨⟨i64, k⟩, broke, rest⟩ := whileDigit (if minus then pushDigit 64 0x0CCCCCCCCCCCCCCC 8
      else pushDigit 64 0x1999999999999999 5) (i, k) rest
    cases broke with
    | false => rfl
    | true =>
      simp only [readDoubleDigits, whileDigit_append _ ends _ rest]

/-- An integer takes all its digits. -/
theorem readInteger_rest (minus : Bool) (ds : Digits) :
    (readInteger ops minus ds.bytes).rest = [] := by
  have rest32 := whileDigit_rest
    (if minus then pushDigit 32 214748364 8 else pushDigit 32 429496729 5) ds.digits_tail
    (digitValue (peek ds.bytes), 0)
  unfold readInteger readDigits32
  generalize whileDigit _ ((digitValue (peek ds.bytes), 0) : Nat × Int) ds.bytes.tail = run
    at rest32 ⊢
  obtain ⟨⟨i, k⟩, broke, rest⟩ := run
  cases broke with
  | false => exact rest32.2 rfl
  | true =>
    have rest64 := whileDigit_rest (if minus then pushDigit 64 0x0CCCCCCCCCCCCCCC 8
      else pushDigit 64 0x1999999999999999 5) rest32.1 (i, k)
    simp only [readDigits64]
    generalize whileDigit _ ((i, k) : Nat × Int) rest = run at rest64 ⊢
    obtain ⟨⟨i64, k⟩, broke, rest⟩ := run
    cases broke with
    | false => exact rest64.2 rfl
    | true =>
      exact whileDigit_all (fun d digit => some (ops.push d digit))
        (fun _ _ => Option.some_ne_none _) rest64.1 _

theorem readFraction_append {r : Bytes} (ends : Ends r) (v : Significand D) (ds : Bytes) :
    readFraction ops v (ds ++ r)
      = ((readFraction ops v ds).1, (readFraction ops v ds).2.1,
        (readFraction ops v ds).2.2 ++ r) := by
  unfold readFraction
  by_cases double : v.useDouble = true
  · simp only [if_pos double, readFractionDouble, whileDigit_append _ ends]
  · simp only [if_neg double, readFraction64, readFractionDouble, whileDigit_append _ ends]

theorem readFraction_rest (v : Significand D) (ds : Digits) :
    (readFraction ops v ds.bytes).2.2 = [] := by
  have all : ∀ {s : Bytes} (a : D × Int × Int), (∀ c ∈ s, isDigit c = true) →
      (readFractionDouble ops a s).2.2 = [] := by
    intro s a digits
    refine whileDigit_all _ ?_ digits a
    rintro ⟨d, e, k⟩ digit
    dsimp only
    split <;> nofun
  unfold readFraction
  by_cases double : v.useDouble = true
  · simp only [if_pos double]
    exact all _ ds.isDigit_bytes
  · simp only [if_neg double]
    exact all _ (whileDigit_rest _ ds.isDigit_bytes _).1

theorem readExponent_append {r : Bytes} (ends : Ends r) (startOffset : Nat) (expFrac : Int)
    (expMinus : Bool) (ds : Digits) :
    readExponent startOffset expFrac expMinus (ds.bytes ++ r)
      = (readExponent startOffset expFrac expMinus ds.bytes).map fun x => (x.1, r) := by
  have skips : ∀ (maxExp : Int) a, (readExpMinus maxExp a ds.bytes.tail).2.2 = [] := by
    intro maxExp a
    refine whileDigit_all _ ?_ ds.digits_tail a
    rintro ⟨exp, past⟩ digit
    dsimp only
    split <;> nofun
  unfold readExponent
  rw [ds.peek_append, ds.tail_append]
  cases expMinus with
  | true =>
    have rest := skips ((expFrac + 2147483639).tdiv 10) (digitValue (peek ds.bytes), false)
    simp only [if_true]
    rw [readExpMinus, whileDigit_append _ ends]
    rw [readExpMinus] at rest
    simp only [rest]
    rfl
  | false =>
    have rest := whileDigit_rest (fun (exp : Int) digit => if 308 - expFrac < exp * 10 + digit
      then none else some (exp * 10 + digit)) ds.digits_tail (digitValue (peek ds.bytes))
    simp only [Bool.false_eq_true, if_false]
    rw [readExpPlus, whileDigit_append _ ends]
    generalize whileDigit _ (digitValue (peek ds.bytes) : Int) ds.bytes.tail = run at rest ⊢
    obtain ⟨exp, broke, left⟩ := run
    cases broke with
    | false =>
      rw [show left = [] from rest.2 rfl]
      rfl
    | true => rfl

/-! ## Tokens -/

namespace NumberToken

/-- No zero leads another digit. -/
theorem leading_peek (t : NumberToken) (zero : peek t.int.bytes = ch '0') :
    t.int.bytes = [ch '0'] :=
  t.leading (t.int.head?_bytes.trans (congrArg some zero))

/-- The variables of `ParseNumber` after the integer, of the token alone. -/
def significand (ops : DoubleOps D) (t : NumberToken) : Significand D :=
  if peek t.int.bytes = ch '0' then { d := ops.zero, rest := [] }
  else readInteger ops t.minus t.int.bytes

/-- After the fraction, with `expFrac`. -/
def fraction (ops : DoubleOps D) (t : NumberToken) : Significand D × Int :=
  match t.frac with
  | none => (t.significand ops, 0)
  | some ds =>
    ({ t.significand ops with
        d := (readFraction ops (t.significand ops) ds.bytes).1, useDouble := true },
      (readFraction ops (t.significand ops) ds.bytes).2.1)

/-- After the exponent, with `exp`. -/
def exponent (ops : DoubleOps D) (startOffset : Nat) (t : NumberToken) :
    Outcome (Significand D × Int) :=
  match t.exp with
  | none => .ok ((t.fraction ops).1, 0)
  | some e => do
    let (exp, _) ← readExponent startOffset (t.fraction ops).2 e.minus e.digits.bytes
    .ok ({ (t.fraction ops).1 with d := (t.fraction ops).1.toDouble ops, useDouble := true }, exp)

/-- The number of the token. -/
def number (ops : DoubleOps D) (startOffset : Nat) (t : NumberToken) : Outcome (Number D) := do
  let (v, exp) ← t.exponent ops startOffset
  finishNumber ops startOffset t.minus v (exp + (t.fraction ops).2)

/-- What comes next does not go on with the token. -/
structure Follows (t : NumberToken) (r : Bytes) : Prop where
  digit : (t.int.bytes = [ch '0'] ∧ t.frac = none ∧ t.exp = none) ∨ Ends r
  point : t.frac = none → t.exp = none → peek r ≠ ch '.'
  letter : t.exp = none → consumeE r = none

end NumberToken

/-! ### What the reader makes of a token -/

theorem not_digit {c : UInt8} (digit : isDigit c = true) {c' : UInt8} (other : isDigit c' = false) :
    c ≠ c' := by
  rintro rfl
  rw [digit] at other
  cases other

theorem Exponent.consumeE (e : Exponent) (r : Bytes) :
    consumeE (e.bytes ++ r) = some (signBytes e.sign ++ e.digits.bytes ++ r) := by
  obtain ⟨letter, isE, sign, digits⟩ := e
  unfold Rapidjson.consumeE
  rcases isE with rfl | rfl
  · rw [bytes, List.cons_append, consume_cons]
    rfl
  · have other : consume (ch 'e') (ch 'E' :: (signBytes sign ++ digits.bytes ++ r)) = none :=
      consume_of_ne (show ch 'E' ≠ ch 'e' by decide)
    rw [bytes, List.cons_append, other, consume_cons]
    rfl

theorem Exponent.parseExpSign (e : Exponent) (r : Bytes) :
    parseExpSign (signBytes e.sign ++ e.digits.bytes ++ r) = (e.minus, e.digits.bytes ++ r) := by
  obtain ⟨letter, isE, sign, digits⟩ := e
  have first := digits.isDigit_peek
  unfold Rapidjson.parseExpSign
  match sign with
  | none =>
    have plus : peek (digits.bytes ++ r) ≠ ch '+' :=
      (digits.peek_append r).symm ▸ not_digit first rfl
    have dash : peek (digits.bytes ++ r) ≠ ch '-' :=
      (digits.peek_append r).symm ▸ not_digit first rfl
    simp only [signBytes, List.nil_append, consume_of_ne plus, consume_of_ne dash, minus]
    rfl
  | some false =>
    simp only [signBytes, List.cons_append, List.nil_append, consume_cons]
    rfl
  | some true =>
    have plus : consume (ch '+') (ch '-' :: (digits.bytes ++ r)) = none :=
      consume_of_ne (show ch '-' ≠ ch '+' by decide)
    simp only [signBytes, List.cons_append, List.nil_append, plus, consume_cons]
    rfl

namespace NumberToken

variable (t : NumberToken) {r : Bytes}

/-- The integer of a token stands before no digit, unless it is zero. -/
theorem int_ends (follows : t.Follows r) (nonzero : peek t.int.bytes ≠ ch '0') :
    Ends (fracBytes t.frac ++ expBytes t.exp ++ r) := by
  have ends : Ends r := by
    refine follows.digit.resolve_left ?_
    rintro ⟨zero, -⟩
    rw [zero] at nonzero
    exact nonzero rfl
  cases t.frac with
  | some ds => exact (rfl : isDigit (ch '.') = false)
  | none =>
    cases t.exp with
    | none => exact ends
    | some e =>
      show isDigit e.letter = false
      rcases e.isE with same | same <;> rw [same] <;> decide

theorem parseInteger_token (size : Nat) (follows : t.Follows r) :
    parseInteger ops size t.minus (t.int.bytes ++ (fracBytes t.frac ++ expBytes t.exp ++ r))
      = .ok { t.significand ops with rest := fracBytes t.frac ++ expBytes t.exp ++ r } := by
  unfold parseInteger significand
  rw [t.int.peek_append, t.int.tail_append]
  by_cases zero : peek t.int.bytes = ch '0'
  · rw [if_pos zero, if_pos zero, t.leading_peek zero]
    rfl
  · have digit := t.int.isDigit_peek
    have range : ch '1' ≤ peek t.int.bytes ∧ peek t.int.bytes ≤ ch '9' := by
      unfold isDigit at digit
      simp only [Bool.and_eq_true, decide_eq_true_eq, UInt8.le_iff_toNat_le] at digit ⊢
      have other : (peek t.int.bytes).toNat ≠ 48 := fun same => zero (UInt8.toNat_inj.mp same)
      have low : 48 ≤ (peek t.int.bytes).toNat := digit.1
      exact ⟨show 49 ≤ _ by omega, digit.2⟩
    rw [if_neg zero, if_neg zero, if_pos range, readInteger_append (t.int_ends follows zero),
      readInteger_rest]
    rfl

theorem parseFraction_token (size : Nat) (follows : t.Follows r) :
    parseFraction ops size
        { t.significand ops with rest := fracBytes t.frac ++ expBytes t.exp ++ r }
      = .ok ({ (t.fraction ops).1 with rest := expBytes t.exp ++ r }, (t.fraction ops).2) := by
  unfold parseFraction fraction
  cases frac : t.frac with
  | none =>
    have point : peek (expBytes t.exp ++ r) ≠ ch '.' := by
      cases exp : t.exp with
      | none => exact follows.point frac exp
      | some e =>
        show e.letter ≠ ch '.'
        rcases e.isE with same | same <;> rw [same] <;> decide
    simp only [fracBytes, List.nil_append, consume_of_ne point]
  | some ds =>
    have ends : Ends (expBytes t.exp ++ r) := by
      cases exp : t.exp with
      | none =>
        refine follows.digit.resolve_left ?_
        rintro ⟨-, whole, -⟩
        rw [frac] at whole
        cases whole
      | some e =>
        show isDigit e.letter = false
        rcases e.isE with same | same <;> rw [same] <;> decide
    simp only [fracBytes, List.cons_append, List.append_assoc, consume_cons]
    rw [if_pos (by rw [ds.peek_append]; exact ds.isDigit_peek)]
    have read : readFraction ops
        { t.significand ops with rest := ch '.' :: (ds.bytes ++ (expBytes t.exp ++ r)) }
        (ds.bytes ++ (expBytes t.exp ++ r))
        = ((readFraction ops (t.significand ops) ds.bytes).1,
          (readFraction ops (t.significand ops) ds.bytes).2.1, expBytes t.exp ++ r) := by
      refine (readFraction_append ends (t.significand ops) ds.bytes).trans ?_
      rw [readFraction_rest, List.nil_append]
    rw [read]

theorem parseExponent_token (size startOffset : Nat) (follows : t.Follows r) :
    parseExponent ops size startOffset { (t.fraction ops).1 with rest := expBytes t.exp ++ r }
        (t.fraction ops).2
      = (t.exponent ops startOffset).map fun x => ({ x.1 with rest := r }, x.2) := by
  unfold parseExponent exponent
  cases exp : t.exp with
  | none =>
    simp only [expBytes, List.nil_append, follows.letter exp]
    rfl
  | some e =>
    have ends : Ends r := by
      refine follows.digit.resolve_left ?_
      rintro ⟨-, -, whole⟩
      rw [exp] at whole
      cases whole
    simp only [expBytes, e.consumeE, e.parseExpSign]
    rw [if_pos (by rw [e.digits.peek_append]; exact e.digits.isDigit_peek),
      readExponent_append ends]
    cases readExponent startOffset (t.fraction ops).2 e.minus e.digits.bytes with
    | error stop => rfl
    | ok x => rfl

theorem parseMinus_token :
    parseMinus (t.bytes ++ r)
      = (t.minus, t.int.bytes ++ (fracBytes t.frac ++ expBytes t.exp ++ r)) := by
  unfold bytes parseMinus
  rw [List.append_assoc, List.append_assoc]
  cases t.minus with
  | true =>
    simp only [if_true, List.cons_append, List.nil_append, consume_cons]
  | false =>
    have dash : peek (t.int.bytes ++ (fracBytes t.frac ++ expBytes t.exp ++ r)) ≠ ch '-' := by
      rw [t.int.peek_append]
      exact not_digit t.int.isDigit_peek rfl
    simp only [Bool.false_eq_true, if_false, List.nil_append, consume_of_ne dash]

/-- **What the reader makes of a number depends on its token alone.** -/
theorem parseNumber_token (size : Nat) (follows : t.Follows r) :
    parseNumber ops size (t.bytes ++ r)
      = (t.number ops (tell size (t.bytes ++ r))).map fun n => (n, r) := by
  unfold parseNumber number
  rw [parseMinus_token]
  simp only [t.parseInteger_token size follows, Except.bind, bind,
    t.parseFraction_token size follows, t.parseExponent_token size _ follows]
  cases t.exponent ops (tell size (t.bytes ++ r)) with
  | error stop => rfl
  | ok x =>
    obtain ⟨v, exp⟩ := x
    have same : finishNumber ops (tell size (t.bytes ++ r)) t.minus { v with rest := r }
        (exp + (t.fraction ops).2)
        = finishNumber ops (tell size (t.bytes ++ r)) t.minus v (exp + (t.fraction ops).2) := rfl
    simp only [Except.map, same]

end NumberToken

/-! ### What the reader takes for a token -/

/-- The integer it read, and what stands after it. -/
theorem parseInteger_ok {size : Nat} {minus : Bool} {s : Bytes} {v : Significand D}
    (h : parseInteger ops size minus s = .ok v) :
    ∃ ds : Digits, (ds.bytes.head? = some (ch '0') → ds.bytes = [ch '0']) ∧
      s = ds.bytes ++ v.rest ∧ (ds.bytes = [ch '0'] ∨ Ends v.rest) := by
  unfold parseInteger at h
  by_cases zero : peek s = ch '0'
  · rw [if_pos zero] at h
    cases h
    cases s with
    | nil => exact absurd zero (by decide)
    | cons c s =>
      obtain rfl : c = ch '0' := zero
      have digit : IsDigit (ch '0') := isDigit_iff.mp rfl
      exact ⟨⟨[ch '0'], List.cons_ne_nil _ _, List.forall_mem_singleton.mpr digit⟩, fun _ => rfl,
        rfl, .inl rfl⟩
  · rw [if_neg zero] at h
    by_cases range : ch '1' ≤ peek s ∧ peek s ≤ ch '9'
    · rw [if_pos range] at h
      cases h
      have digit : isDigit (peek s) = true := by
        unfold isDigit
        simp only [UInt8.le_iff_toNat_le, Bool.and_eq_true, decide_eq_true_eq] at range ⊢
        have low : 49 ≤ (peek s).toNat := range.1
        exact ⟨show 48 ≤ _ by omega, range.2⟩
      obtain ⟨ds, r, rfl, ends⟩ := digits_split digit
      rw [ds.peek_append] at zero
      rw [readInteger_append ends, readInteger_rest]
      refine ⟨ds, fun leads => absurd ?_ zero, rfl, .inr ends⟩
      exact Option.some.inj (ds.head?_bytes.symm.trans leads)
    · rw [if_neg range] at h
      cases h

/-- The fraction it read, if any. -/
theorem parseFraction_ok {size : Nat} {v v' : Significand D} {e : Int}
    (h : parseFraction ops size v = .ok (v', e)) :
    (v'.rest = v.rest ∧ peek v.rest ≠ ch '.') ∨
      ∃ ds : Digits, v.rest = ch '.' :: (ds.bytes ++ v'.rest) ∧ Ends v'.rest := by
  unfold parseFraction at h
  by_cases point : peek v.rest = ch '.'
  · cases rest : v.rest with
    | nil =>
      rw [rest] at point
      exact absurd point (by decide)
    | cons c s =>
      rw [rest] at point
      obtain rfl : c = ch '.' := point
      simp only [rest, consume_cons] at h
      by_cases digit : isDigit (peek s) = true
      · obtain ⟨ds, r, rfl, ends⟩ := digits_split digit
        rw [if_pos digit, readFraction_append ends, readFraction_rest] at h
        cases h
        exact .inr ⟨ds, rfl, ends⟩
      · rw [if_neg digit] at h
        cases h
  · simp only [consume_of_ne point] at h
    cases h
    exact .inl ⟨rfl, point⟩

theorem consumeE_some {s r : Bytes} (h : consumeE s = some r) :
    ∃ letter, (letter = ch 'e' ∨ letter = ch 'E') ∧ s = letter :: r := by
  unfold consumeE at h
  rcases Option.or_eq_some_iff.mp h with e | ⟨-, e⟩
  · exact ⟨ch 'e', .inl rfl, eq_cons_of_consume e rfl⟩
  · exact ⟨ch 'E', .inr rfl, eq_cons_of_consume e rfl⟩

theorem parseExpSign_eq (s : Bytes) :
    ∃ sign, s = Exponent.signBytes sign ++ (parseExpSign s).2 := by
  unfold parseExpSign
  cases plus : consume (ch '+') s with
  | some r => exact ⟨some false, eq_cons_of_consume plus rfl⟩
  | none =>
    cases dash : consume (ch '-') s with
    | some r => exact ⟨some true, eq_cons_of_consume dash rfl⟩
    | none => exact ⟨none, rfl⟩

/-- The exponent it read, if any. -/
theorem parseExponent_ok {size startOffset : Nat} {v v' : Significand D} {expFrac exp : Int}
    (h : parseExponent ops size startOffset v expFrac = .ok (v', exp)) :
    (v'.rest = v.rest ∧ consumeE v.rest = none) ∨
      ∃ e : Exponent, v.rest = e.bytes ++ v'.rest ∧ Ends v'.rest := by
  unfold parseExponent at h
  cases found : consumeE v.rest with
  | none =>
    simp only [found] at h
    cases h
    exact .inl ⟨rfl, rfl⟩
  | some s =>
    obtain ⟨letter, isE, rest⟩ := consumeE_some found
    obtain ⟨sign, signed⟩ := parseExpSign_eq s
    simp only [found] at h
    by_cases digit : isDigit (peek (parseExpSign s).2) = true
    · obtain ⟨ds, r, split, ends⟩ := digits_split digit
      rw [if_pos digit, split, readExponent_append ends] at h
      cases read : readExponent startOffset expFrac (parseExpSign s).1 ds.bytes with
      | error stop =>
        rw [read] at h
        cases h
      | ok x =>
        rw [read] at h
        cases h
        refine .inr ⟨⟨letter, isE, sign, ds⟩, ?_, ends⟩
        rw [rest, signed, split, Exponent.bytes, List.cons_append, List.append_assoc]
    · rw [if_neg digit] at h
      cases h

theorem parseMinus_eq (s : Bytes) :
    s = (if (parseMinus s).1 then [ch '-'] else []) ++ (parseMinus s).2 := by
  unfold parseMinus
  cases dash : consume (ch '-') s with
  | some r => exact eq_cons_of_consume dash rfl
  | none => rfl

/-- **The reader takes a token**, and what comes next does not go on with it. -/
theorem parseNumber_lexes {size : Nat} {s r : Bytes} {n : Number D}
    (h : parseNumber ops size s = .ok (n, r)) :
    ∃ t : NumberToken, s = t.bytes ++ r ∧ t.Follows r := by
  unfold parseNumber at h
  simp only [bind, Except.bind] at h
  split at h
  · cases h
  next v integer =>
  split at h
  · cases h
  next x fraction =>
  obtain ⟨v₁, expFrac⟩ := x
  split at h
  · cases h
  next x exponent =>
  obtain ⟨v₂, exp⟩ := x
  split at h
  · cases h
  cases h
  obtain ⟨ds, leading, int, stop⟩ := parseInteger_ok integer
  have start := parseMinus_eq s
  rw [int] at start
  rcases parseFraction_ok fraction with ⟨same, point⟩ | ⟨fs, frac, fracEnds⟩ <;>
    rcases parseExponent_ok exponent with ⟨same', letter⟩ | ⟨e, expo, expEnds⟩
  · refine ⟨⟨(parseMinus s).1, ds, leading, none, none⟩, ?_, ?_, ?_, ?_⟩
    · rw [same', same]
      simpa [NumberToken.bytes, NumberToken.fracBytes, NumberToken.expBytes] using start
    · rw [same', same]
      exact stop.imp (fun zero => ⟨zero, rfl, rfl⟩) id
    · intro _ _
      rwa [same', same]
    · intro _
      rwa [same']
  · refine ⟨⟨(parseMinus s).1, ds, leading, none, some e⟩, ?_, .inr expEnds, nofun, nofun⟩
    rw [← same, expo] at start
    simpa [NumberToken.bytes, NumberToken.fracBytes, NumberToken.expBytes] using start
  · refine ⟨⟨(parseMinus s).1, ds, leading, some fs, none⟩, ?_, ?_, nofun, ?_⟩
    · rw [same']
      rw [frac] at start
      simpa [NumberToken.bytes, NumberToken.fracBytes, NumberToken.expBytes] using start
    · rw [same']
      exact .inr fracEnds
    · intro _
      rwa [same']
  · refine ⟨⟨(parseMinus s).1, ds, leading, some fs, some e⟩, ?_, .inr expEnds, nofun, nofun⟩
    rw [frac, expo] at start
    simpa [NumberToken.bytes, NumberToken.fracBytes, NumberToken.expBytes] using start

end PeerNode.Rapidjson
