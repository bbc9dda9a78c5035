import PeerNode.Lib.Json

/-!
# Reading back what was spelled

`parse_render`: every value is read back from its spelling. The proof follows the shape of
the value; each part of the text is read up to exactly where it was spelled to, whatever
stands behind it. Only a number needs to know what that is: a digit, a point or an exponent
mark behind it would be read as its own (`Stops`).
-/

namespace Json

/-! ## Strings -/

theorem hexVal_hexDigit : ∀ n < 16, hexVal (hexDigit n) = some n := by decide

/-- The four digits of a control's escape are read as its code. -/
private theorem parseUnit_control {n : Nat} (h : n < 32) (text : List Char) :
    parseUnit ('0' :: '0' :: hexDigit (n / 16) :: hexDigit (n % 16) :: text) = some (n, text) := by
  have zero : hexVal '0' = some 0 := by decide
  have high := hexVal_hexDigit (n / 16) (by omega)
  have low := hexVal_hexDigit (n % 16) (by omega)
  simp only [parseUnit, zero, high, low, Option.bind_eq_bind, Option.bind_some, Option.some.injEq,
    Prod.mk.injEq, and_true]
  omega

private theorem parseUnicode_control {c : Char} (h : c.toNat < 32) (text : List Char) :
    parseUnicode ('0' :: '0' :: hexDigit (c.toNat / 16) :: hexDigit (c.toNat % 16) :: text)
      = some (c, text) := by
  have notHigh : ¬ (0xD800 ≤ c.toNat ∧ c.toNat < 0xDC00) := by omega
  have notLow : ¬ (0xDC00 ≤ c.toNat ∧ c.toNat < 0xE000) := by omega
  simp only [parseUnicode, parseUnit_control h, Option.bind_eq_bind, Option.bind_some, notHigh,
    notLow, if_false, Char.ofNat_toNat]

/-- A character is its code. -/
private theorem eq_ofNat {c : Char} {n : Nat} (h : c.toNat = n) : Char.ofNat n = c := by
  rw [← h, Char.ofNat_toNat]

/-- A character stands for itself, and is none of those that may not, or it is a backslash and
an escape that is read as it. -/
theorem escape_cases (c : Char) :
    (escape c = [c] ∧ c ≠ '"' ∧ c ≠ '\\' ∧ ¬ c.toNat < 32) ∨
      ∃ e, escape c = '\\' :: e ∧ ∀ text, parseEscape (e ++ text) = some (c, text) := by
  unfold escape
  split
  · next h => exact .inr ⟨['"'], rfl, fun text => by subst h; rfl⟩
  split
  · next h => exact .inr ⟨['\\'], rfl, fun text => by subst h; rfl⟩
  split
  · next control =>
    right
    split
    · next h => exact ⟨['b'], rfl, fun text => by rw [← eq_ofNat h]; rfl⟩
    split
    · next h => exact ⟨['t'], rfl, fun text => by rw [← eq_ofNat h]; rfl⟩
    split
    · next h => exact ⟨['n'], rfl, fun text => by rw [← eq_ofNat h]; rfl⟩
    split
    · next h => exact ⟨['f'], rfl, fun text => by rw [← eq_ofNat h]; rfl⟩
    split
    · next h => exact ⟨['r'], rfl, fun text => by rw [← eq_ofNat h]; rfl⟩
    · exact ⟨_, rfl, parseUnicode_control control⟩
  · next quotation backslash control => exact .inl ⟨rfl, quotation, backslash, control⟩

/-- A string is read to its closing mark. -/
theorem parseChars_escape (cs : List Char) (fuel : Nat) (text : List Char)
    (h : cs.length < fuel) :
    parseChars fuel (cs.flatMap escape ++ '"' :: text) = some (cs, text) := by
  induction cs generalizing fuel with
  | nil =>
    obtain ⟨fuel, rfl⟩ := Nat.exists_eq_add_of_lt h
    simp only [List.flatMap_nil, List.nil_append, parseChars, if_true]
  | cons c cs ih =>
    obtain ⟨fuel, rfl⟩ : ∃ k, fuel = k + 1 := ⟨fuel - 1, by omega⟩
    have rest := ih fuel (by rw [List.length_cons] at h; omega)
    rw [List.flatMap_cons, List.append_assoc]
    rcases escape_cases c with ⟨he, quotation, backslash, control⟩ | ⟨e, he, read⟩
    · simp only [he, List.cons_append, List.nil_append, parseChars, quotation, backslash, control,
        if_false, rest, Option.bind_eq_bind, Option.bind_some]
    · have mark : ¬ ('\\' = '"') := by decide
      simp only [he, List.cons_append, parseChars, mark, if_false, if_true, read, rest,
        Option.bind_eq_bind, Option.bind_some]

/-- An escape is at least one character long. -/
private theorem length_le_flatMap_escape (cs : List Char) :
    cs.length ≤ (cs.flatMap escape).length := by
  induction cs with
  | nil => exact Nat.le_refl 0
  | cons c cs ih =>
    have pos : 1 ≤ (escape c).length := by
      rcases escape_cases c with ⟨he, -⟩ | ⟨e, he, -⟩ <;> rw [he] <;>
        simp only [List.length_cons] <;> omega
    rw [List.flatMap_cons, List.length_append, List.length_cons]
    omega

theorem length_quote (s : String) : s.toList.length + 2 ≤ (quote s).length := by
  have h := length_le_flatMap_escape s.toList
  simp only [quote, List.length_cons, List.length_append, List.length_nil]
  omega

/-! ## Numbers -/

/-- The text does not go on with a number. -/
def Stops (text : List Char) : Prop :=
  ∀ c ∈ text.head?, c.isDigit = false ∧ c ≠ '.' ∧ c ≠ 'e' ∧ c ≠ 'E'

theorem Stops.nil : Stops [] := by
  intro c h
  cases h

theorem Stops.cons {c : Char} {text : List Char}
    (h : c.isDigit = false ∧ c ≠ '.' ∧ c ≠ 'e' ∧ c ≠ 'E') : Stops (c :: text) := by
  intro d hd
  cases hd
  exact h

private theorem takeWhile_digits {ds text : List Char} (digits : ∀ c ∈ ds, c.isDigit = true)
    (stop : ∀ c ∈ text.head?, c.isDigit = false) :
    (ds ++ text).takeWhile Char.isDigit = ds ∧ (ds ++ text).dropWhile Char.isDigit = text := by
  have tail : text.takeWhile Char.isDigit = [] ∧ text.dropWhile Char.isDigit = text := by
    cases text with
    | nil => exact ⟨rfl, rfl⟩
    | cons c text =>
      have hc := stop c rfl
      simp only [List.takeWhile_cons, List.dropWhile_cons, hc, Bool.false_eq_true, if_false,
        and_self]
  rw [List.takeWhile_append_of_pos digits, List.dropWhile_append_of_pos digits, tail.1, tail.2,
    List.append_nil]
  exact ⟨rfl, rfl⟩

theorem isDigit_of_mem_toDigits {n : Nat} {c : Char} (h : c ∈ Nat.toDigits 10 n) :
    c.isDigit = true :=
  Nat.isDigit_of_mem_toDigits (by decide) (by decide) h

theorem parseDigits_toDigits (n : Nat) {text : List Char}
    (stop : ∀ c ∈ text.head?, c.isDigit = false) :
    parseDigits (Nat.toDigits 10 n ++ text) = some (Nat.toDigits 10 n, text) := by
  obtain ⟨taken, left⟩ := takeWhile_digits (fun c => isDigit_of_mem_toDigits (n := n)) stop
  simp only [parseDigits, taken, left, Nat.toDigits_ne_nil, if_false]

/-- Only zero is written with a leading zero. -/
theorem toDigits_head_zero {n : Nat} (h : (Nat.toDigits 10 n).head? = some '0') :
    Nat.toDigits 10 n = ['0'] := by
  induction n using Nat.strongRecOn with
  | ind n ih =>
    by_cases small : n < 10
    · rw [Nat.toDigits_of_lt_base small] at h ⊢
      simp only [List.head?_cons, Option.some.injEq] at h
      rw [h]
    · have split := Nat.toDigits_of_base_le (b := 10) (by decide) (Nat.le_of_not_lt small)
      rw [split, List.head?_append] at h
      cases front : (Nat.toDigits 10 (n / 10)).head? with
      | none => exact absurd (List.head?_eq_none_iff.mp front) Nat.toDigits_ne_nil
      | some c =>
        rw [front, Option.some_or] at h
        have zero := ih (n / 10) (by omega) (front.trans h)
        have value := congrArg (fun ds => Nat.ofDigitChars 10 ds 0) zero
        simp only [Nat.ofDigitChars_ten_toDigits] at value
        have : n / 10 = 0 := value
        omega

theorem parseFraction_of_stop {text : List Char} (stop : ∀ c ∈ text.head?, c ≠ '.') :
    parseFraction text = some ([], text) := by
  unfold parseFraction
  split
  · exact absurd rfl (stop '.' rfl)
  · rfl

theorem parseExponent_of_stop {text : List Char}
    (stop : ∀ c ∈ text.head?, c ≠ 'e' ∧ c ≠ 'E') : parseExponent text = some (0, text) := by
  cases text with
  | nil => rfl
  | cons c text =>
    obtain ⟨lower, upper⟩ := stop c rfl
    simp only [parseExponent, lower, upper, or_self, if_false]

/-- What spells a number starts with a digit. -/
private theorem digit_cases {n : Nat} : ∃ c ds, Nat.toDigits 10 n = c :: ds ∧ c.isDigit = true := by
  cases h : Nat.toDigits 10 n with
  | nil => exact absurd h Nat.toDigits_ne_nil
  | cons c ds =>
    have mem : c ∈ Nat.toDigits 10 n := h ▸ List.mem_cons_self
    exact ⟨c, ds, rfl, isDigit_of_mem_toDigits mem⟩

private theorem digit_ne {c d : Char} (hc : c.isDigit = true) (hd : d.isDigit = false) : c ≠ d := by
  rintro rfl
  rw [hc] at hd
  cases hd

theorem parseExponent_renderInt (e : Int) {text : List Char} (stop : Stops text) :
    parseExponent ('e' :: (renderInt e ++ text)) = some (e, text) := by
  have digits := parseDigits_toDigits e.natAbs fun c hc => (stop c hc).1
  by_cases negative : e < 0
  · have value : -(e.natAbs : Int) = e := by omega
    simp only [renderInt, negative, if_true, List.cons_append, parseExponent, true_or, digits,
      Option.bind_eq_bind, Option.bind_some, Nat.ofDigitChars_ten_toDigits, value]
  · obtain ⟨c, ds, front, hc⟩ := digit_cases (n := e.natAbs)
    have minus : c ≠ '-' := digit_ne hc rfl
    have plus : c ≠ '+' := digit_ne hc rfl
    have value : (e.natAbs : Int) = e := by omega
    rw [front] at digits
    have number : Nat.ofDigitChars 10 (c :: ds) 0 = e.natAbs := by
      rw [← front, Nat.ofDigitChars_ten_toDigits]
    simp only [renderInt, negative, if_false, front, parseExponent, true_or, if_true]
    split
    · next h => cases h; exact absurd rfl minus
    · next h => cases h; exact absurd rfl plus
    · simp only [digits, Option.bind_eq_bind, Option.bind_some, number, Bool.false_eq_true,
        if_false, value]

/-- The magnitude of a number is read with whatever exponent follows it. -/
theorem parseMagnitude_toDigits (n : Nat) (e : Int) {tail text : List Char}
    (stop : ∀ c ∈ tail.head?, c.isDigit = false ∧ c ≠ '.')
    (exponent : parseExponent tail = some (e, text)) :
    parseMagnitude (Nat.toDigits 10 n ++ tail) = some (n, e, text) := by
  have digits := parseDigits_toDigits n fun c hc => (stop c hc).1
  have lead : ¬ ((Nat.toDigits 10 n).head? = some '0' ∧ Nat.toDigits 10 n ≠ ['0']) :=
    fun h => h.2 (toDigits_head_zero h.1)
  have fraction := parseFraction_of_stop fun c hc => (stop c hc).2
  simp only [parseMagnitude, digits, lead, if_false, fraction, exponent, Option.bind_eq_bind,
    Option.bind_some, List.append_nil, Nat.ofDigitChars_ten_toDigits, List.length_nil,
    Int.natCast_zero, Int.sub_zero]

/-- A number is read to where it was spelled to. -/
theorem parseNumber_render (m e : Int) {text : List Char} (stop : Stops text) :
    parseNumber ((Json.num m e).render ++ text) = some (.num m e, text) := by
  -- what stands behind the mantissa, and that it is read as the exponent
  obtain ⟨tail, spelled, ends, exponent⟩ : ∃ tail, (Json.num m e).render ++ text
      = renderInt m ++ tail ∧ (∀ c ∈ tail.head?, c.isDigit = false ∧ c ≠ '.') ∧
        parseExponent tail = some (e, text) := by
    by_cases zero : e = 0
    · refine ⟨text, by simp only [render, zero, if_true], fun c hc => ?_, ?_⟩
      · exact ⟨(stop c hc).1, (stop c hc).2.1⟩
      · rw [zero]
        exact parseExponent_of_stop fun c hc => (stop c hc).2.2
    · refine ⟨'e' :: (renderInt e ++ text), ?_, fun c hc => ?_, parseExponent_renderInt e stop⟩
      · simp only [render, zero, if_false, List.append_assoc, List.cons_append]
      · cases hc
        decide
  rw [spelled]
  have magnitude := parseMagnitude_toDigits m.natAbs e ends exponent
  by_cases negative : m < 0
  · have value : -(m.natAbs : Int) = m := by omega
    simp only [renderInt, negative, if_true, List.cons_append, parseNumber, magnitude,
      Option.map_some, value]
  · obtain ⟨c, ds, front, hc⟩ := digit_cases (n := m.natAbs)
    have minus : c ≠ '-' := digit_ne hc rfl
    have value : (m.natAbs : Int) = m := by omega
    rw [front, List.cons_append] at magnitude
    simp only [renderInt, negative, if_false, front, List.cons_append, parseNumber, minus,
      magnitude, Option.map_some, value]

/-! ## Values -/

/-- A value starts with its first token: not a blank, and not what would close an array. -/
theorem render_head (v : Json) :
    ∃ c text, v.render = c :: text ∧ isBlank c = false ∧ c ≠ ']' := by
  have digit : ∀ i : Int, ∃ c text, renderInt i = c :: text ∧ isBlank c = false ∧ c ≠ ']' := by
    intro i
    obtain ⟨c, ds, front, hc⟩ := digit_cases (n := i.natAbs)
    by_cases negative : i < 0
    · exact ⟨'-', Nat.toDigits 10 i.natAbs, by simp only [renderInt, negative, if_true],
        rfl, by decide⟩
    · refine ⟨c, ds, by simp only [renderInt, negative, if_false, front], ?_, ?_⟩
      · have space : c ≠ ' ' := digit_ne hc rfl
        have line : c ≠ '\n' := digit_ne hc rfl
        have feed : c ≠ '\r' := digit_ne hc rfl
        have tab : c ≠ '\t' := digit_ne hc rfl
        simp only [isBlank, space, line, feed, tab, decide_false, Bool.or_self]
      · exact digit_ne hc rfl
  cases v with
  | null => exact ⟨'n', _, rfl, rfl, by decide⟩
  | bool b => cases b <;> exact ⟨_, _, rfl, rfl, by decide⟩
  | num m e =>
    obtain ⟨c, text, front, rest⟩ := digit m
    by_cases zero : e = 0
    · exact ⟨c, text, by simp only [render, zero, if_true, front], rest⟩
    · exact ⟨c, _, by simp only [render, zero, if_false, front, List.cons_append]; rfl, rest⟩
  | str s => exact ⟨'"', _, rfl, rfl, by decide⟩
  | arr items => exact ⟨'[', _, rfl, rfl, by decide⟩
  | obj members => exact ⟨'{', _, rfl, rfl, by decide⟩

theorem skipBlanks_cons {c : Char} (h : isBlank c = false) (text : List Char) :
    skipBlanks (c :: text) = c :: text := by
  simp only [skipBlanks, List.dropWhile_cons, h, Bool.false_eq_true, if_false]

/-- A number is read as a number: its first character is a sign or a digit, which starts no
other value. -/
private theorem parseValue_num (m e : Int) (fuel : Nat) {text : List Char} (stop : Stops text) :
    parseValue (fuel + 1) ((Json.num m e).render ++ text) = some (.num m e, text) := by
  have number := parseNumber_render m e stop
  obtain ⟨c, rest, front, blank, -⟩ := render_head (.num m e)
  have head : c = '-' ∨ c.isDigit = true := by
    obtain ⟨d, ds, digits, hd⟩ := digit_cases (n := m.natAbs)
    by_cases negative : m < 0 <;> by_cases zero : e = 0 <;>
      simp only [render, zero, if_true, if_false, renderInt, negative, digits, List.cons_append,
        List.cons.injEq] at front <;> grind
  have other : ∀ d : Char, d.isDigit = false → d ≠ '-' → c ≠ d := by
    intro d hd minus
    rcases head with rfl | digit
    · exact minus.symm
    · exact digit_ne digit hd
  rw [front, List.cons_append] at number ⊢
  simp only [parseValue, skipBlanks_cons blank, other 'n' rfl (by decide),
    other 't' rfl (by decide), other 'f' rfl (by decide),
    other '"' rfl (by decide), other '[' rfl (by decide),
    other '{' rfl (by decide), if_false, number]

mutual

/-- A value is read to where it was spelled to. -/
theorem parseValue_render : ∀ (v : Json) (fuel : Nat) (text : List Char),
    2 * v.render.length ≤ fuel → Stops text →
      parseValue fuel (v.render ++ text) = some (v, text)
  | v, 0, _, h, _ => by
    obtain ⟨c, rest, front, -⟩ := render_head v
    rw [front, List.length_cons] at h
    omega
  | .null, fuel + 1, text, _, _ => rfl
  | .bool true, fuel + 1, text, _, _ => rfl
  | .bool false, fuel + 1, text, _, _ => rfl
  | .num m e, fuel + 1, text, _, stop => parseValue_num m e fuel stop
  | .str s, fuel + 1, text, h, _ => by
    have long := length_quote s
    have chars := parseChars_escape s.toList fuel text (by simp only [render] at h; omega)
    have spelled : (Json.str s).render ++ text
        = '"' :: (s.toList.flatMap escape ++ '"' :: text) := by
      simp only [render, quote, List.cons_append, List.append_assoc, List.nil_append]
    rw [spelled]
    show (parseChars fuel (s.toList.flatMap escape ++ '"' :: text)).map _ = _
    rw [chars]
    show some (Json.str (String.ofList s.toList), text) = _
    rw [String.ofList_toList]
  | .arr [], fuel + 1, text, _, _ => rfl
  | .arr (v :: vs), fuel + 1, text, h, _ => by
    have long : 2 * (renderItems (v :: vs)).length + 1 ≤ fuel := by
      simp only [render, List.length_cons, List.length_append, List.length_nil] at h
      omega
    have items := parseItems_render (v :: vs) fuel text (List.cons_ne_nil v vs) long
    obtain ⟨c, rest, front, blank, close⟩ := render_head v
    obtain ⟨rest, front⟩ : ∃ rest, renderItems (v :: vs) ++ ']' :: text = c :: rest := by
      cases vs <;> exact ⟨_, by rw [renderItems, front]; rfl⟩
    have spelled : (Json.arr (v :: vs)).render ++ text
        = '[' :: (renderItems (v :: vs) ++ ']' :: text) := by
      simp only [render, List.cons_append, List.append_assoc, List.nil_append]
    rw [spelled]
    show (match expect [']'] (skipBlanks (renderItems (v :: vs) ++ ']' :: text)) with
      | some rest => some (Json.arr [], rest)
      | none => (parseItems fuel (renderItems (v :: vs) ++ ']' :: text)).map _) = _
    rw [items, front, skipBlanks_cons blank, expect, if_neg (Ne.symm close)]
    rfl
  | .obj [], fuel + 1, text, _, _ => rfl
  | .obj (m :: ms), fuel + 1, text, h, _ => by
    have long : 2 * (renderMembers (m :: ms)).length + 1 ≤ fuel := by
      simp only [render, List.length_cons, List.length_append, List.length_nil] at h
      omega
    have members := parseMembers_render (m :: ms) fuel text (List.cons_ne_nil m ms) long
    obtain ⟨rest, front⟩ : ∃ rest, renderMembers (m :: ms) ++ '}' :: text = '"' :: rest := by
      cases ms <;> exact ⟨_, by rw [renderMembers, quote]; rfl⟩
    have spelled : (Json.obj (m :: ms)).render ++ text
        = '{' :: (renderMembers (m :: ms) ++ '}' :: text) := by
      simp only [render, List.cons_append, List.append_assoc, List.nil_append]
    rw [spelled]
    show (match expect ['}'] (skipBlanks (renderMembers (m :: ms) ++ '}' :: text)) with
      | some rest => some (Json.obj [], rest)
      | none => (parseMembers fuel (renderMembers (m :: ms) ++ '}' :: text)).map _) = _
    rw [members, front]
    rfl

/-- The items of an array are read to its closing bracket. -/
theorem parseItems_render : ∀ (items : List Json) (fuel : Nat) (text : List Char),
    items ≠ [] → 2 * (renderItems items).length + 1 ≤ fuel →
      parseItems fuel (renderItems items ++ ']' :: text) = some (items, text)
  | [], _, _, h, _ => absurd rfl h
  | _, 0, _, _, h => by omega
  | [v], fuel + 1, text, _, h => by
    have value := parseValue_render v fuel (']' :: text)
      (by simp only [renderItems] at h; omega) (.cons (by decide))
    simp only [renderItems, parseItems, value, Option.bind_eq_bind, Option.bind_some]
    rfl
  | v :: w :: vs, fuel + 1, text, _, h => by
    simp only [renderItems, List.length_append, List.length_cons] at h
    have value := parseValue_render v fuel (',' :: (renderItems (w :: vs) ++ ']' :: text))
      (by omega) (.cons (by decide))
    have items := parseItems_render (w :: vs) fuel text (List.cons_ne_nil w vs) (by omega)
    simp only [renderItems, List.append_assoc, List.cons_append, parseItems, value,
      Option.bind_eq_bind, Option.bind_some]
    show (parseItems fuel (renderItems (w :: vs) ++ ']' :: text)).bind _ = _
    rw [items]
    rfl

/-- The members of an object are read to its closing brace. -/
theorem parseMembers_render : ∀ (members : List (String × Json)) (fuel : Nat) (text : List Char),
    members ≠ [] → 2 * (renderMembers members).length + 1 ≤ fuel →
      parseMembers fuel (renderMembers members ++ '}' :: text) = some (members, text)
  | [], _, _, h, _ => absurd rfl h
  | _, 0, _, _, h => by omega
  | [(k, v)], fuel + 1, text, _, h => by
    simp only [renderMembers, List.length_append, List.length_cons] at h
    have long := length_quote k
    have key := parseChars_escape k.toList fuel (':' :: (v.render ++ '}' :: text)) (by omega)
    have value := parseValue_render v fuel ('}' :: text) (by omega) (.cons (by decide))
    have spelled : renderMembers [(k, v)] ++ '}' :: text
        = '"' :: (k.toList.flatMap escape ++ '"' :: ':' :: (v.render ++ '}' :: text)) := by
      simp only [renderMembers, quote, List.cons_append, List.append_assoc, List.nil_append]
    rw [spelled]
    show (parseChars fuel _).bind _ = _
    rw [key]
    show (parseValue fuel (v.render ++ '}' :: text)).bind _ = _
    rw [value]
    show some ([(String.ofList k.toList, v)], text) = _
    rw [String.ofList_toList]
  | (k, v) :: m :: ms, fuel + 1, text, _, h => by
    simp only [renderMembers, List.length_append, List.length_cons] at h
    have long := length_quote k
    have key := parseChars_escape k.toList fuel
      (':' :: (v.render ++ ',' :: (renderMembers (m :: ms) ++ '}' :: text))) (by omega)
    have value := parseValue_render v fuel (',' :: (renderMembers (m :: ms) ++ '}' :: text))
      (by omega) (.cons (by decide))
    have members := parseMembers_render (m :: ms) fuel text (List.cons_ne_nil m ms) (by omega)
    have spelled : renderMembers ((k, v) :: m :: ms) ++ '}' :: text
        = '"' :: (k.toList.flatMap escape ++
            '"' :: ':' :: (v.render ++ ',' :: (renderMembers (m :: ms) ++ '}' :: text))) := by
      simp only [renderMembers, quote, List.cons_append, List.append_assoc, List.nil_append]
    rw [spelled]
    show (parseChars fuel _).bind _ = _
    rw [key]
    show (parseValue fuel (v.render ++ ',' :: (renderMembers (m :: ms) ++ '}' :: text))).bind _ = _
    rw [value]
    show (parseMembers fuel (renderMembers (m :: ms) ++ '}' :: text)).bind _ = _
    rw [members]
    show some ((String.ofList k.toList, v) :: m :: ms, text) = _
    rw [String.ofList_toList]

end

/-- **Every value is read back from its spelling.** -/
theorem parse_render (v : Json) : parse v.render = some v := by
  have value := parseValue_render v (2 * v.render.length) [] (Nat.le_refl _) .nil
  rw [List.append_nil] at value
  rw [parse, value]
  rfl

end Json
