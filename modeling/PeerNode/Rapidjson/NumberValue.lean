import PeerNode.Rapidjson.NumberText

/-!
# The value of a number

What `ParseNumber` makes of a token. Of an integer it makes the number of its digits, exactly, as
the first of its types that holds it, and a double only where none does (`number_integer`); of any
other token it makes a double, and which one is its own arithmetic, `readDouble`. The
checks in its loops keep `unsigned` and `uint64_t` from ever running over, and those on an exponent
keep the index into `Pow10`'s table within it: a number that is refused is too big, and nothing
else can go wrong with it (`number_error`).
-/

namespace PeerNode.Rapidjson

variable {D : Type} {ops : DoubleOps D}

/-! ## Integers -/

theorem le_decimal (value : Nat) (ds : Bytes) : value ≤ decimal value ds := by
  induction ds generalizing value with
  | nil => exact Nat.le_refl _
  | cons c ds ih =>
    have rest := ih (value * 10 + digitValue c)
    show value ≤ decimal (value * 10 + digitValue c) ds
    omega

theorem digitValue_le {c : UInt8} (digit : isDigit c = true) : digitValue c ≤ 9 := by
  unfold isDigit at digit
  simp only [Bool.and_eq_true, decide_eq_true_eq, UInt8.le_iff_toNat_le] at digit
  have high : c.toNat ≤ 57 := digit.2
  unfold digitValue
  omega

theorem Digits.value_eq (ds : Digits) :
    ds.value = decimal (digitValue (peek ds.bytes)) ds.bytes.tail := by
  obtain ⟨bytes, nonempty, -⟩ := ds
  cases bytes with
  | nil => exact absurd rfl nonempty
  | cons c s =>
    have first : 0 * 10 + digitValue c = digitValue c := by omega
    exact congrArg (decimal · s) first

/-- **A loop for an integer is exact, and never runs over.** With room for everything up to
`limit * 10 + last` it takes all the digits there is room for, and breaks if there is none for all
of them. -/
theorem whileDigit_pushDigit {w limit last : Nat} (fits : limit * 10 + last < 2 ^ w)
    (digit : last ≤ 9) {ds : Bytes} (digits : ∀ c ∈ ds, isDigit c = true) {value : Nat}
    (room : value ≤ limit * 10 + last) (k : Int) :
    ((whileDigit (pushDigit w limit last) (value, k) ds).2.1 = false ∧
        (whileDigit (pushDigit w limit last) (value, k) ds).1.1 = decimal value ds ∧
        decimal value ds ≤ limit * 10 + last) ∨
      ((whileDigit (pushDigit w limit last) (value, k) ds).2.1 = true ∧
        limit * 10 + last < decimal value ds ∧
        (whileDigit (pushDigit w limit last) (value, k) ds).1.1 ≤ limit * 10 + last ∧
        decimal (whileDigit (pushDigit w limit last) (value, k) ds).1.1
            (whileDigit (pushDigit w limit last) (value, k) ds).2.2 = decimal value ds) := by
  induction ds generalizing value k with
  | nil => exact .inl ⟨rfl, rfl, room⟩
  | cons c ds ih =>
    have nine := digitValue_le (digits c List.mem_cons_self)
    have next : decimal value (c :: ds) = decimal (value * 10 + digitValue c) ds := rfl
    rw [whileDigit, if_pos (digits c List.mem_cons_self), pushDigit]
    by_cases stops : limit ≤ value ∧ (value ≠ limit ∨ last < digitValue c)
    · have grown := le_decimal (value * 10 + digitValue c) ds
      rw [if_pos stops]
      refine .inr ⟨rfl, ?_, room, rfl⟩
      rw [next]
      omega
    · have small : value * 10 + digitValue c ≤ limit * 10 + last := by omega
      rw [if_neg stops, Nat.mod_eq_of_lt (Nat.lt_of_le_of_lt small fits), next]
      exact ih (fun c mem => digits c (List.mem_cons_of_mem _ mem)) small _

/-- The reader's variables after an integer of that value. -/
structure HasRead (minus : Bool) (value : Nat) (v : Significand D) : Prop where
  small : v.use64bit = false → v.i = value ∧ value ≤ if minus then 2147483648 else 4294967295
  large : v.use64bit = true → v.useDouble = false → v.i64 = value ∧
    (if minus then 2147483648 else 4294967295) < value ∧
      value ≤ if minus then 9223372036854775808 else 18446744073709551615
  double : v.useDouble = true →
    v.use64bit = true ∧ (if minus then 9223372036854775808 else 18446744073709551615) < value

/-- **An integer is read exactly**, in one of the two widths as long as one holds it. -/
theorem readInteger_value (minus : Bool) (ds : Digits) :
    HasRead minus ds.value (readInteger ops minus ds.bytes) := by
  have nine := digitValue_le ds.isDigit_peek
  rw [ds.value_eq]
  -- the two loops, with the limits of the sign
  obtain ⟨limit32, last32, limit64, last64, body32, body64, top32, top64, fits32, fits64, digit32,
      digit64, nine32, wider⟩ : ∃ limit32 last32 limit64 last64 : Nat,
      (if minus then pushDigit 32 214748364 8 else pushDigit 32 429496729 5)
        = pushDigit 32 limit32 last32 ∧
      (if minus then pushDigit 64 0x0CCCCCCCCCCCCCCC 8 else pushDigit 64 0x1999999999999999 5)
        = pushDigit 64 limit64 last64 ∧
      (if minus then 2147483648 else 4294967295) = limit32 * 10 + last32 ∧
      (if minus then 9223372036854775808 else 18446744073709551615) = limit64 * 10 + last64 ∧
      limit32 * 10 + last32 < 2 ^ 32 ∧ limit64 * 10 + last64 < 2 ^ 64 ∧ last32 ≤ 9 ∧
      last64 ≤ 9 ∧ 9 ≤ limit32 ∧ limit32 * 10 + last32 ≤ limit64 * 10 + last64 := by
    cases minus with
    | true => exact ⟨214748364, 8, 0x0CCCCCCCCCCCCCCC, 8, rfl, rfl, rfl, rfl, by omega⟩
    | false => exact ⟨429496729, 5, 0x1999999999999999, 5, rfl, rfl, rfl, rfl, by omega⟩
  have run32 := @whileDigit_pushDigit 32 limit32 last32 fits32 digit32 _ ds.digits_tail
    (digitValue (peek ds.bytes)) (by omega) 0
  have left32 := (whileDigit_rest (pushDigit 32 limit32 last32) ds.digits_tail
    (digitValue (peek ds.bytes), 0)).1
  unfold readInteger readDigits32 readDigits64
  rw [body32, body64]
  generalize whileDigit _ ((digitValue (peek ds.bytes), 0) : Nat × Int) ds.bytes.tail = run
    at run32 left32 ⊢
  generalize decimal (digitValue (peek ds.bytes)) ds.bytes.tail = value at run32 ⊢
  obtain ⟨⟨i, k⟩, broke, rest⟩ := run
  rcases run32 with ⟨rfl, rfl, small⟩ | ⟨rfl, big, room, more⟩
  · exact ⟨fun _ => ⟨rfl, top32 ▸ small⟩, nofun, nofun⟩
  · have run64 := @whileDigit_pushDigit 64 limit64 last64 fits64 digit64 _ left32 i
      (Nat.le_trans room wider) k
    dsimp only at run64 more
    rw [more] at run64
    dsimp only
    generalize whileDigit _ ((i, k) : Nat × Int) rest = run at run64 ⊢
    obtain ⟨⟨i64, k⟩, broke, rest⟩ := run
    rcases run64 with ⟨rfl, rfl, small⟩ | ⟨rfl, bigger, -, -⟩
    · exact ⟨nofun, fun _ _ => ⟨rfl, top32 ▸ big, top64 ▸ small⟩, nofun⟩
    · exact ⟨nofun, fun _ => nofun, fun _ => ⟨rfl, top64 ▸ bigger⟩⟩

/-- The type that `ParseNumber` settles on, by its flags. -/
theorem HasRead.integerNumber {minus : Bool} {value : Nat} {v : Significand D}
    (h : HasRead minus value v) :
    integerNumber (D := D) minus value
      = if v.useDouble then none
        else if v.use64bit then
          some (if minus then .int64 (.ofInt (-v.i64)) else .uint64 (.ofNat v.i64))
        else some (if minus then .int (.ofInt (-v.i)) else .uint (.ofNat v.i)) := by
  unfold Rapidjson.integerNumber
  cases double : v.useDouble with
  | true =>
    have big := (h.double double).2
    cases minus with
    | true =>
      simp only [if_true] at big ⊢
      rw [if_neg (by omega), if_neg (by omega)]
    | false =>
      simp only [Bool.false_eq_true, if_false] at big ⊢
      rw [if_neg (by omega), if_neg (by omega)]
      rfl
  | false =>
    cases wide : v.use64bit with
    | true =>
      obtain ⟨same, big, small⟩ := h.large wide double
      rw [same]
      cases minus with
      | true =>
        simp only [if_true, Bool.false_eq_true, if_false] at big small ⊢
        rw [if_neg (by omega), if_pos small]
      | false =>
        simp only [if_true, Bool.false_eq_true, if_false] at big small ⊢
        rw [if_neg (by omega), if_pos small]
    | false =>
      obtain ⟨same, small⟩ := h.small wide
      rw [same]
      cases minus with
      | true =>
        simp only [if_true, Bool.false_eq_true, if_false] at small ⊢
        rw [if_pos small]
      | false =>
        simp only [Bool.false_eq_true, if_false] at small ⊢
        rw [if_pos small]

/-- No type holds it: the first number past the wider of the two. -/
theorem integerNumber_none {minus : Bool} {value : Nat} :
    integerNumber (D := D) minus value = none
      ↔ (if minus then 9223372036854775808 else 18446744073709551615) < value := by
  unfold integerNumber
  cases minus with
  | true =>
    simp only [if_true]
    split
    · exact ⟨nofun, fun big => by omega⟩
    · split
      · exact ⟨nofun, fun big => by omega⟩
      · exact ⟨fun _ => by omega, fun _ => rfl⟩
  | false =>
    simp only [Bool.false_eq_true, if_false]
    split
    · exact ⟨nofun, fun big => by omega⟩
    · split
      · exact ⟨nofun, fun big => by omega⟩
      · exact ⟨fun _ => by omega, fun _ => rfl⟩

theorem integerNumber_toInt {minus : Bool} {value : Nat} {n : Number D}
    (h : integerNumber minus value = some n) :
    n.toInt? = some (if minus then -(value : Int) else value) := by
  unfold integerNumber at h
  cases minus with
  | true =>
    simp only [if_true] at h ⊢
    split at h
    · cases h
      exact congrArg some (Int32.toInt_ofInt_of_le (by omega) (by omega))
    · split at h
      · cases h
        exact congrArg some (Int64.toInt_ofInt_of_le (by omega) (by omega))
      · cases h
  | false =>
    simp only [Bool.false_eq_true, if_false] at h ⊢
    split at h
    · next small =>
      cases h
      have whole : (UInt32.ofNat value).toNat = value :=
        UInt32.toNat_ofNat_of_lt' (Nat.lt_of_le_of_lt small (by decide))
      exact congrArg some (congrArg Int.ofNat whole)
    · split at h
      · next small =>
        cases h
        have whole : (UInt64.ofNat value).toNat = value :=
          UInt64.toNat_ofNat_of_lt' (Nat.lt_of_le_of_lt small (by decide))
        exact congrArg some (congrArg Int.ofNat whole)
      · cases h

namespace NumberToken

variable (t : NumberToken)

theorem significand_value : HasRead t.minus t.int.value (t.significand ops) := by
  unfold significand
  by_cases zero : peek t.int.bytes = ch '0'
  · have value : t.int.value = 0 := by
      rw [Digits.value, t.leading_peek zero]
      rfl
    rw [if_pos zero, value]
    exact ⟨fun _ => ⟨rfl, Nat.zero_le _⟩, nofun, nofun⟩
  · rw [if_neg zero]
    exact readInteger_value t.minus t.int

/-- **Integers are exact.** An integer that one of the types holds is read as itself, in the first
type that does; any other as a `double`. -/
theorem number_integer (startOffset : Nat) (whole : t.Whole) :
    (∀ n, integerNumber t.minus t.int.value = some n → t.number ops startOffset = .ok n) ∧
      (integerNumber (D := D) t.minus t.int.value = none →
        ∀ n, t.number ops startOffset = .ok n → n.toInt? = none) := by
  have read : t.number ops startOffset
      = finishNumber ops startOffset t.minus (t.significand ops) (0 + 0) := by
    unfold number exponent fraction
    rw [whole.1, whole.2]
    rfl
  rw [read, (@significand_value D ops t).integerNumber]
  unfold finishNumber
  cases (t.significand ops).useDouble with
  | true =>
    refine ⟨nofun, ?_⟩
    intro _ n h
    simp only [if_true, bind, Except.bind] at h
    split at h
    · cases h
    · split at h
      · cases h
      · cases h
        rfl
  | false =>
    cases (t.significand ops).use64bit with
    | true => exact ⟨fun n h => congrArg Except.ok (Option.some.inj h), nofun⟩
    | false => exact ⟨fun n h => congrArg Except.ok (Option.some.inj h), nofun⟩

end NumberToken

/-! ## Exponents -/

/-- The digits of a fraction only ever lower the exponent. -/
theorem readFraction_expFrac (v : Significand D) (s : Bytes) : (readFraction ops v s).2.1 ≤ 0 := by
  have double : ∀ (a : D × Int × Int) s, a.2.1 ≤ 0 → (readFractionDouble ops a s).1.2.1 ≤ 0 := by
    intro a s start
    refine whileDigit_keeps (P := fun a : D × Int × Int => a.2.1 ≤ 0) _ ?_ s start
    rintro ⟨d, e, k⟩ digit a' low next
    dsimp only at low next
    split at next <;> cases next
    · exact Int.le_trans (Int.sub_le_self e (by decide)) low
    · exact low
  have exact : ∀ (a : Nat × Int × Int) s, a.2.1 ≤ 0 → (readFraction64 a s).1.2.1 ≤ 0 := by
    intro a s start
    refine whileDigit_keeps (P := fun a : Nat × Int × Int => a.2.1 ≤ 0) _ ?_ s start
    rintro ⟨i64, e, k⟩ digit a' low next
    dsimp only at low next
    split at next
    · cases next
    · cases next
      exact Int.le_trans (Int.sub_le_self e (by decide)) low
  unfold readFraction
  by_cases useDouble : v.useDouble = true
  · simp only [if_pos useDouble]
    exact double _ _ (Int.le_refl 0)
  · simp only [if_neg useDouble]
    exact double _ _ (exact _ _ (Int.le_refl 0))

/-- An exponent that is read leaves the power of ten within the table, or below it. -/
theorem readExponent_le {startOffset : Nat} {expFrac exp : Int} {expMinus : Bool} {s r : Bytes}
    (first : isDigit (peek s) = true) (low : expFrac ≤ 0)
    (h : readExponent startOffset expFrac expMinus s = .ok (exp, r)) :
    exp + expFrac ≤ 308 := by
  have nine := digitValue_le first
  unfold readExponent at h
  cases expMinus with
  | true =>
    have nonneg : 0 ≤ (readExpMinus ((expFrac + 2147483639).tdiv 10)
        (digitValue (peek s), false) s.tail).1.1 := by
      refine whileDigit_keeps (P := fun a : Int × Bool => 0 ≤ a.1) _ ?_ _ (Int.natCast_nonneg _)
      rintro ⟨e, past⟩ digit a' start next
      dsimp only at start next
      split at next <;> cases next
      · exact start
      · exact Int.add_nonneg (Int.mul_nonneg start (by decide)) (Int.natCast_nonneg _)
    simp only [if_true] at h
    generalize readExpMinus _ ((digitValue (peek s), false) : Int × Bool) s.tail = run
      at nonneg h
    obtain ⟨⟨e, past⟩, broke, rest⟩ := run
    dsimp only at nonneg h
    cases h
    omega
  | false =>
    have bound : (readExpPlus (308 - expFrac) (digitValue (peek s)) s.tail).1
        ≤ 308 - expFrac := by
      refine whileDigit_keeps (P := fun e : Int => e ≤ 308 - expFrac) _ ?_ _ (by omega)
      intro e digit a' _ next
      split at next
      · cases next
      · next fits =>
        cases next
        exact Int.not_lt.mp fits
    simp only [Bool.false_eq_true, if_false] at h
    split at h
    · next read =>
      rw [read] at bound
      cases h
      dsimp only at bound
      omega
    · cases h

theorem fastPath_ok (d : D) {exp : Int} (high : exp ≤ 308) :
    ∃ d', fastPath ops d exp = .ok d' := by
  unfold fastPath
  split
  · exact ⟨_, rfl⟩
  · split
    · rw [pow10, dif_pos (by omega)]
      exact ⟨_, rfl⟩
    · rw [pow10, dif_pos (by omega)]
      exact ⟨_, rfl⟩

/-- **The table of powers is never left**, however far below it the exponent is. -/
theorem strtodNormalPrecision_ok (d : D) {p : Int} (high : p ≤ 308) :
    ∃ d', strtodNormalPrecision ops d p = .ok d' := by
  unfold strtodNormalPrecision
  split
  · obtain ⟨d', first⟩ := @fastPath_ok D ops d (-308) (by decide)
    obtain ⟨d'', second⟩ := @fastPath_ok D ops d' (p + 308) (by omega)
    exact ⟨d'', by rw [first]; exact second⟩
  · exact fastPath_ok d high

theorem readExponent_error {startOffset : Nat} {expFrac : Int} {expMinus : Bool} {s : Bytes}
    {stop : Stop} (h : readExponent startOffset expFrac expMinus s = .error stop) :
    stop = .error .numberTooBig startOffset := by
  unfold readExponent at h
  cases expMinus with
  | true =>
    simp only [if_true] at h
    cases h
  | false =>
    simp only [Bool.false_eq_true, if_false] at h
    split at h <;> cases h
    rfl

theorem readExponent_offset {startOffset : Nat} (startOffset' : Nat) {expFrac : Int}
    {expMinus : Bool} {s : Bytes} {x : Int × Bytes}
    (h : readExponent startOffset expFrac expMinus s = .ok x) :
    readExponent startOffset' expFrac expMinus s = .ok x := by
  unfold readExponent at h ⊢
  cases expMinus with
  | true => exact h
  | false =>
    simp only [Bool.false_eq_true, if_false] at h ⊢
    split at h
    · exact h
    · cases h

theorem finishNumber_error {startOffset : Nat} {minus : Bool} {v : Significand D} {p : Int}
    {stop : Stop} (high : p ≤ 308) (h : finishNumber ops startOffset minus v p = .error stop) :
    stop = .error .numberTooBig startOffset := by
  unfold finishNumber at h
  split at h
  · obtain ⟨d, scaled⟩ := @strtodNormalPrecision_ok D ops v.d p high
    simp only [scaled, bind, Except.bind] at h
    split at h <;> cases h
    rfl
  · split at h <;> cases h

theorem finishNumber_double {startOffset : Nat} {minus : Bool} {v : Significand D} {p : Int}
    {n : Number D} (double : v.useDouble = true)
    (h : finishNumber ops startOffset minus v p = .ok n) : ∃ d, n = .double d := by
  unfold finishNumber at h
  rw [if_pos double] at h
  cases scaled : strtodNormalPrecision ops v.d p with
  | error stop =>
    rw [scaled] at h
    cases h
  | ok d =>
    simp only [scaled, bind, Except.bind] at h
    split at h
    · cases h
    · cases h
      exact ⟨_, rfl⟩

theorem parseFraction_coded {size : Nat} (v : Significand D) :
    Delivers size (fun x => x.2 ≤ 0) (parseFraction ops size v) := by
  unfold parseFraction
  cases consume (ch '.') v.rest with
  | none => exact Int.le_refl 0
  | some s =>
    dsimp only
    split
    · exact readFraction_expFrac v s
    · exact .fail (tell_le _ _)

theorem parseExponent_coded {size startOffset : Nat} (inside : startOffset ≤ size)
    (v : Significand D) {expFrac : Int} (low : expFrac ≤ 0) :
    Delivers size (fun x => x.2 + expFrac ≤ 308)
      (parseExponent ops size startOffset v expFrac) := by
  unfold parseExponent
  cases consumeE v.rest with
  | none =>
    show 0 + expFrac ≤ 308
    omega
  | some s =>
    dsimp only
    split
    · next digit =>
      cases read : readExponent startOffset expFrac (parseExpSign s).1 (parseExpSign s).2 with
      | error stop => exact ⟨_, _, readExponent_error read, inside⟩
      | ok x => exact readExponent_le digit low read
    · exact .fail (tell_le _ _)

theorem finishNumber_coded {size startOffset : Nat} (inside : startOffset ≤ size) (minus : Bool)
    (v : Significand D) {p : Int} (high : p ≤ 308) :
    Delivers size (fun _ => True) (finishNumber ops startOffset minus v p) := by
  cases finish : finishNumber ops startOffset minus v p with
  | error stop => exact ⟨_, _, finishNumber_error high finish, inside⟩
  | ok n => trivial

/-- **What goes wrong with a number has a code.** -/
theorem parseNumber_coded (size : Nat) (s : Bytes) :
    Delivers size (fun _ => True) (parseNumber ops size s) := by
  have inside := tell_le size s
  have integer : ∀ minus s, Delivers size (fun _ => True) (parseInteger ops size minus s) := by
    intro minus s
    unfold parseInteger
    split
    · trivial
    · split
      · trivial
      · exact .fail (tell_le _ _)
  unfold parseNumber
  refine (integer _ _).bind fun v _ => (parseFraction_coded v).bind ?_
  rintro ⟨v, expFrac⟩ low
  refine (parseExponent_coded inside v low).bind ?_
  rintro ⟨v, exp⟩ high
  exact (finishNumber_coded inside _ v high).bind fun _ _ => trivial

namespace NumberToken

theorem fraction_expFrac (t : NumberToken) : (t.fraction ops).2 ≤ 0 := by
  unfold fraction
  cases t.frac with
  | none => exact Int.le_refl 0
  | some ds => exact readFraction_expFrac _ _

/-- A number fails in one way: it is too big, and the error is at its start. -/
theorem number_error (t : NumberToken) {startOffset : Nat} {stop : Stop}
    (h : t.number ops startOffset = .error stop) : stop = .error .numberTooBig startOffset := by
  have low := @fraction_expFrac D ops t
  unfold number exponent at h
  cases letter : t.exp with
  | none =>
    rw [letter] at h
    refine finishNumber_error ?_ h
    rw [Int.zero_add]
    exact Int.le_trans low (by decide)
  | some e =>
    simp only [letter] at h
    cases read : readExponent startOffset (t.fraction ops).2 e.minus e.digits.bytes with
    | error stop =>
      rw [read] at h
      cases h
      exact readExponent_error read
    | ok x =>
      obtain ⟨exp, r⟩ := x
      simp only [read, bind, Except.bind] at h
      exact finishNumber_error (readExponent_le e.digits.isDigit_peek low read) h

/-- Where a number stands does not change it. -/
theorem number_offset (t : NumberToken) {startOffset : Nat} (startOffset' : Nat) {n : Number D}
    (h : t.number ops startOffset = .ok n) : t.number ops startOffset' = .ok n := by
  have finish : ∀ {v : Significand D} {p : Int}, finishNumber ops startOffset t.minus v p = .ok n →
      finishNumber ops startOffset' t.minus v p = .ok n := by
    intro v p h
    unfold finishNumber at h ⊢
    split at h
    · next double =>
      rw [if_pos double]
      cases scaled : strtodNormalPrecision ops v.d p with
      | error stop =>
        rw [scaled] at h
        cases h
      | ok d =>
        simp only [scaled, bind, Except.bind] at h ⊢
        split at h
        · cases h
        · next within => rwa [if_neg within]
    · next exact =>
      rwa [if_neg exact]
  unfold number exponent at h ⊢
  cases letter : t.exp with
  | none =>
    simp only [letter] at h
    exact finish h
  | some e =>
    simp only [letter, bind, Except.bind] at h ⊢
    cases read : readExponent startOffset (t.fraction ops).2 e.minus e.digits.bytes with
    | error stop =>
      rw [read] at h
      cases h
    | ok x =>
      rw [read] at h
      rw [readExponent_offset startOffset' read]
      exact finish h

end NumberToken

/-! ## The number that a token is -/

/-- The `double` of a token: what `ParseNumber` makes of it when it stands alone, if it makes one.
This is the reader's own arithmetic. -/
def readDouble (ops : DoubleOps D) (t : NumberToken) : Option D :=
  match parseNumber ops t.bytes.length t.bytes with
  | .ok (.double d, _) => some d
  | _ => none

namespace NumberToken

variable (t : NumberToken)

theorem parseNumber_alone :
    parseNumber ops t.bytes.length t.bytes = (t.number ops 0).map fun n => (n, []) := by
  have alone : t.Follows [] := ⟨.inr rfl, fun _ _ => by decide, fun _ => rfl⟩
  have read := @parseNumber_token D ops t [] t.bytes.length alone
  rwa [List.append_nil, tell, Nat.sub_self] at read

theorem readDouble_iff {d : D} :
    readDouble ops t = some d ↔ t.number ops 0 = .ok (.double d) := by
  unfold readDouble
  rw [parseNumber_alone]
  cases t.number ops 0 with
  | error stop => exact ⟨nofun, nofun⟩
  | ok n =>
    cases n with
    | double d' =>
      constructor
      · rintro ⟨rfl⟩
        rfl
      · rintro ⟨rfl⟩
        rfl
    | _ => exact ⟨nofun, nofun⟩

/-- With a fraction or an exponent it is a `double`. -/
theorem number_fractional {n : Number D} (broken : ¬ t.Whole) (h : t.number ops 0 = .ok n) :
    ∃ d, n = .double d := by
  unfold number exponent at h
  cases letter : t.exp with
  | none =>
    have double : (t.fraction ops).1.useDouble = true := by
      unfold fraction
      cases frac : t.frac with
      | none => exact absurd ⟨frac, letter⟩ broken
      | some ds => rfl
    simp only [letter] at h
    exact finishNumber_double double h
  | some e =>
    simp only [letter, bind, Except.bind] at h
    cases read : readExponent 0 (t.fraction ops).2 e.minus e.digits.bytes with
    | error stop =>
      rw [read] at h
      cases h
    | ok x =>
      rw [read] at h
      exact finishNumber_double rfl h

/-- **What is made of a token is what the grammar says it is.** -/
theorem number_iff {n : Number D} : t.number ops 0 = .ok n ↔ Tells (readDouble ops) t n := by
  constructor
  · intro made
    by_cases whole : t.Whole
    · obtain ⟨exact, double⟩ := @number_integer D ops t 0 whole
      cases holds : integerNumber (D := D) t.minus t.int.value with
      | some m =>
        have same : n = m := Except.ok.inj (made.symm.trans (exact m holds))
        exact same ▸ .integer whole holds
      | none =>
        have other := double holds n made
        cases n with
        | double d => exact .double (fun _ => holds) (t.readDouble_iff.mpr made)
        | _ => cases other
    · obtain ⟨d, rfl⟩ := t.number_fractional whole made
      exact .double (fun h => absurd h whole) (t.readDouble_iff.mpr made)
  · intro tells
    cases tells with
    | integer whole holds => exact (number_integer t 0 whole).1 n holds
    | double _ is => exact t.readDouble_iff.mp is

end NumberToken

/-- What is read as a number is a token of one. -/
theorem parseNumber_delivers (size : Nat) (s : Bytes) :
    Delivers size (fun x => ∃ t, s = NumberToken.bytes t ++ x.2 ∧ Tells (readDouble ops) t x.1)
      (parseNumber ops size s) := by
  cases read : parseNumber ops size s with
  | ok x =>
    obtain ⟨n, r⟩ := x
    obtain ⟨t, rest, follows⟩ := parseNumber_lexes read
    rw [rest, t.parseNumber_token size follows] at read
    refine ⟨t, rest, ?_⟩
    cases number : t.number ops (tell size (t.bytes ++ r)) with
    | error stop =>
      rw [number] at read
      cases read
    | ok n' =>
      rw [number] at read
      cases read
      exact t.number_iff.mp (t.number_offset 0 number)
  | error stop =>
    have coded := @parseNumber_coded D ops size s
    rwa [read] at coded

end PeerNode.Rapidjson
