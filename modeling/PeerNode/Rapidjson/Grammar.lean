import PeerNode.Rapidjson.NumberValue

/-!
# What the reader reads

The reader and the grammar agree (`parse_iff`): the document of a text is what its bytes spell, up
to a NUL or to its end, after what there is of a byte order mark, if the call stack holds it. A text
without a document is refused with a code at a place in it (`parse_refuses`): the stack of the
document never runs short, no code point is out of range, no power of ten is beyond its table, and
no text takes more steps than the fuel allows. What can run short is the call stack, and only on a
text with as many opening brackets as it has frames.

Both directions follow the shape of the text. `Phrase.Reads` is what the reader does on a phrase
that is spelled, by induction on its spelling; `DeliversValue`, `DeliversMembers` and
`DeliversElements` are what it has read when it is done, by induction on the fuel.
-/

namespace PeerNode.Rapidjson

variable {D : Type} {ops : DoubleOps D} {double : NumberToken → Option D}

/-! ## How a phrase starts, and what may follow it -/

/-- A byte that is no blank, ends neither an array nor the text and is no part of a byte order
mark. -/
def startsValue (c : UInt8) : Bool :=
  !isWhitespace c && (c != ch ']' && (c != 0 && decide (c < 0x80)))

/-- The first byte of a phrase. -/
def Phrase.Opens : Phrase D → UInt8 → Prop
  | .members _, c => c = ch '"'
  | _, c => startsValue c = true

theorem startsValue_digit {c : UInt8} (digit : isDigit c = true) : startsValue c = true := by
  have apart : ∀ {c'}, isDigit c' = false → c ≠ c' := not_digit digit
  unfold startsValue isWhitespace
  simp only [(apart rfl : c ≠ ch ' '), (apart rfl : c ≠ ch '\n'), (apart rfl : c ≠ ch '\r'),
    (apart rfl : c ≠ ch '\t'), decide_false, Bool.or_false, Bool.not_false, Bool.true_and,
    Bool.and_eq_true, bne_iff_ne, decide_eq_true_eq]
  refine ⟨apart rfl, apart rfl, ?_⟩
  unfold isDigit at digit
  rw [Bool.and_eq_true, decide_eq_true_eq, decide_eq_true_eq] at digit
  exact UInt8.lt_of_le_of_lt digit.2 (by decide)

theorem NumberToken.opens (t : NumberToken) :
    ∃ c s, t.bytes = c :: s ∧ (c = ch '-' ∨ isDigit c = true) := by
  obtain ⟨minus, ⟨int, nonempty, digits⟩, leading, frac, exp⟩ := t
  cases minus with
  | true => exact ⟨_, _, rfl, .inl rfl⟩
  | false =>
    cases int with
    | nil => exact absurd rfl nonempty
    | cons c s => exact ⟨c, _, rfl, .inr (isDigit_iff.mpr (digits c List.mem_cons_self))⟩

theorem NumberToken.startsValue (t : NumberToken) :
    ∃ c s, t.bytes = c :: s ∧ startsValue c = true := by
  obtain ⟨c, s, bytes, first⟩ := t.opens
  refine ⟨c, s, bytes, ?_⟩
  rcases first with rfl | digit
  · rfl
  · exact startsValue_digit digit

theorem Spells.opens {p : Phrase D} {t : Bytes} (h : Spells double p t) :
    ∃ c s, t = c :: s ∧ p.Opens c := by
  induction h with
  | @number t _ _ => exact t.startsValue
  | null => exact ⟨_, _, rfl, (rfl : startsValue (ch 'n') = .true)⟩
  | true => exact ⟨_, _, rfl, (rfl : startsValue (ch 't') = .true)⟩
  | false => exact ⟨_, _, rfl, (rfl : startsValue (ch 'f') = .true)⟩
  | string _ => exact ⟨_, _, rfl, (rfl : startsValue (ch '"') = .true)⟩
  | emptyObject _ => exact ⟨_, _, rfl, (rfl : startsValue (ch '{') = .true)⟩
  | object _ _ _ => exact ⟨_, _, rfl, (rfl : startsValue (ch '{') = .true)⟩
  | emptyArray _ => exact ⟨_, _, rfl, (rfl : startsValue (ch '[') = .true)⟩
  | array _ _ _ => exact ⟨_, _, rfl, (rfl : startsValue (ch '[') = .true)⟩
  | member _ _ _ _ _ _ => exact ⟨_, _, rfl, rfl⟩
  | moreMembers _ _ _ _ _ _ _ _ _ => exact ⟨_, _, rfl, rfl⟩
  | element _ _ ih =>
    obtain ⟨c, s, rfl, first⟩ := ih
    exact ⟨c, _, rfl, first⟩
  | moreElements _ _ _ _ ih _ =>
    obtain ⟨c, s, rfl, first⟩ := ih
    exact ⟨c, _, rfl, first⟩

theorem Spells.opens_append {p : Phrase D} {t : Bytes} (h : Spells double p t) (r : Bytes) :
    p.Opens (peek (t ++ r)) := by
  obtain ⟨c, s, rfl, first⟩ := h.opens
  exact first

theorem startsValue_iff {c : UInt8} :
    startsValue c = true ↔ isWhitespace c = false ∧ c ≠ ch ']' ∧ c ≠ 0 ∧ c < 0x80 := by
  unfold startsValue
  rw [Bool.and_eq_true, Bool.and_eq_true, Bool.and_eq_true, Bool.not_eq_true', bne_iff_ne,
    bne_iff_ne, decide_eq_true_eq]

/-- What stands where a value is over: a blank, a comma, a closing bracket of either kind, or the
end. -/
def AfterValue (r : Bytes) : Prop :=
  isWhitespace (peek r) = true ∨ peek r = ch ',' ∨ peek r = ch '}' ∨ peek r = ch ']' ∨ peek r = 0

theorem AfterValue.follows {r : Bytes} (after : AfterValue r) (t : NumberToken) : t.Follows r := by
  have stops : isDigit (peek r) = false ∧ peek r ≠ ch '.' ∧ peek r ≠ ch 'e' ∧ peek r ≠ ch 'E' := by
    unfold AfterValue isWhitespace at after
    simp only [Bool.or_eq_true, decide_eq_true_eq] at after
    rcases after with (((h | h) | h) | h) | h | h | h | h <;> rw [h] <;> decide
  obtain ⟨digit, point, e, bigE⟩ := stops
  refine ⟨.inr digit, fun _ _ => point, fun _ => ?_⟩
  rw [consumeE, consume_of_ne e, consume_of_ne bigE]
  rfl

/-- After blanks it is still the end of the value. -/
theorem AfterValue.blanks {b r : Bytes} (blanks : Blanks b) (after : AfterValue r) :
    AfterValue (b ++ r) := by
  cases b with
  | nil => exact after
  | cons c b => exact .inl (isWhitespace_iff.mpr (blanks c List.mem_cons_self))

/-! ## The stack of the document -/

/-- The members as values one after the other, names included. -/
def flat (ms : List (Value D × Value D)) : List (Value D) := ms.flatMap fun m => [m.1, m.2]

theorem asMembers_flat (ms : List (Value D × Value D)) : asMembers (flat ms) = ms := by
  induction ms with
  | nil => rfl
  | cons m ms ih =>
    show m :: asMembers (flat ms) = m :: ms
    rw [ih]

theorem length_flat (ms : List (Value D × Value D)) : (flat ms).length = 2 * ms.length := by
  induction ms with
  | nil => rfl
  | cons m ms ih =>
    show (flat ms).length + 2 = 2 * (ms.length + 1)
    omega

/-- The stack inside an object, after these members. -/
def openObject (ms : List (Value D × Value D)) (st : List (Value D)) : List (Value D) :=
  (flat ms).reverse ++ .object [] :: st

/-- The stack inside an array, after these elements. -/
def openArray (vs : List (Value D)) (st : List (Value D)) : List (Value D) :=
  vs.reverse ++ .array [] :: st

theorem openObject_member (ms : List (Value D × Value D)) (name v : Value D)
    (st : List (Value D)) :
    v :: name :: openObject ms st = openObject (ms ++ [(name, v)]) st := by
  unfold openObject flat
  rw [List.flatMap_append, List.reverse_append]
  rfl

theorem openArray_element (vs : List (Value D)) (v : Value D) (st : List (Value D)) :
    v :: openArray vs st = openArray (vs ++ [v]) st := by
  unfold openArray
  rw [List.reverse_append]
  rfl

theorem pop_reverse (values st : List (Value D)) :
    pop values.length (values.reverse ++ st) = .ok (values, st) := by
  have count : values.length = values.reverse.length := List.length_reverse.symm
  have enough : values.length ≤ (values.reverse ++ st).length := by
    rw [List.length_append, ← count]
    exact Nat.le_add_right _ _
  rw [pop, if_pos enough, List.take_left' count.symm, List.drop_left' count.symm,
    List.reverse_reverse]

/-- **The end of an object takes just its members off the stack.** -/
theorem endObject_ok (ms : List (Value D × Value D)) (st : List (Value D)) (offset : Nat) :
    Document.handler.call (openObject ms st) (.endObject ms.length) offset
      = .ok (.object ms :: st) := by
  have popped := pop_reverse (flat ms) (.object [] :: st)
  rw [length_flat] at popped
  have run : Document.handler (openObject ms st) (.endObject ms.length)
      = .ok (.object ms :: st, true) := by
    show (pop (2 * ms.length) ((flat ms).reverse ++ .object [] :: st) >>= _) = _
    rw [popped]
    show Except.ok (Value.object (asMembers (flat ms)) :: st, true) = _
    rw [asMembers_flat]
  rw [Handler.call, run]
  rfl

theorem endArray_ok (vs : List (Value D)) (st : List (Value D)) (offset : Nat) :
    Document.handler.call (openArray vs st) (.endArray vs.length) offset
      = .ok (.array vs :: st) := by
  have run : Document.handler (openArray vs st) (.endArray vs.length)
      = .ok (.array vs :: st, true) := by
    show (pop vs.length (vs.reverse ++ .array [] :: st) >>= _) = _
    rw [pop_reverse]
    rfl
  rw [Handler.call, run]
  rfl

/-! ## What is spelled is read -/

/-- What the reader does on bytes that are such a phrase, with as much fuel and as many frames as
they need. -/
def Phrase.Reads (ops : DoubleOps D) : Phrase D → Bytes → Prop
  | .value v, t => ∀ size fuel frames r st, 2 * t.length < fuel → v.depth ≤ frames →
    AfterValue r →
      parseValue ops Document.handler size fuel frames (t ++ r) st = .ok (r, v :: st)
  | .members ms, t => ∀ size fuel frames r ms₀ st, 2 * t.length + 1 < fuel →
    membersDepth ms ≤ frames →
      parseMembers ops Document.handler size fuel frames ms₀.length (t ++ ch '}' :: r)
          (openObject ms₀ st)
        = .ok (r, .object (ms₀ ++ ms) :: st)
  | .elements vs, t => ∀ size fuel frames r vs₀ st, 2 * t.length + 1 < fuel →
    elementsDepth vs ≤ frames →
      parseElements ops Document.handler size fuel frames vs₀.length (t ++ ch ']' :: r)
          (openArray vs₀ st)
        = .ok (r, .array (vs₀ ++ vs) :: st)

theorem Handler.call_ok {σ : Type} {handler : Handler D σ} {st st' : σ} {e : Event D}
    (offset : Nat) (call : handler st e = .ok (st', true)) :
    handler.call st e offset = .ok st' := by
  rw [Handler.call, call]
  rfl

theorem parseLiteral_word (size : Nat) (c : UInt8) (word r : Bytes) {e : Event D}
    {st st' : List (Value D)} (call : Document.handler st e = .ok (st', true)) :
    parseLiteral Document.handler size word e (c :: (word ++ r)) st = .ok (r, st') := by
  rw [parseLiteral, List.tail_cons, consumeAll_append]
  show (Document.handler.call st e _ >>= _) = _
  rw [Handler.call_ok _ call]
  rfl

theorem parseStringEvent_chars (size : Nat) (isKey : Bool) {str cs : Bytes} (chars : Chars str cs)
    (r : Bytes) (st : List (Value D)) :
    parseStringEvent Document.handler size isKey (quoted cs ++ r) st
      = .ok (r, .string str :: st) := by
  rw [parseStringEvent, parseString_chars size chars]
  cases isKey <;> rfl

theorem parseNumberEvent_token (size : Nat) {t : NumberToken} {n : Number D}
    (tells : Tells (readDouble ops) t n) {r : Bytes} (after : AfterValue r) (st : List (Value D)) :
    parseNumberEvent ops Document.handler size (t.bytes ++ r) st
      = .ok (r, .number n :: st) := by
  rw [parseNumberEvent, t.parseNumber_token size (after.follows t),
    t.number_offset _ (t.number_iff.mpr tells)]
  rfl

/-- A value that starts like a number is one. -/
theorem parseValue_number (size fuel frames : Nat) {c : UInt8} (s : Bytes) (st : List (Value D))
    (first : c = ch '-' ∨ isDigit c = true) :
    parseValue ops Document.handler size (fuel + 1) (frames + 1) (c :: s) st
      = parseNumberEvent ops Document.handler size (c :: s) st := by
  have apart : ∀ {c'}, c' ≠ ch '-' → isDigit c' = false → c ≠ c' := by
    intro c' dash other
    rcases first with rfl | digit
    · exact dash.symm
    · exact not_digit digit other
  have head : peek (c :: s) = c := rfl
  rw [parseValue]
  simp only [head]
  rw [if_neg (apart (by decide) rfl), if_neg (apart (by decide) rfl),
    if_neg (apart (by decide) rfl), if_neg (apart (by decide) rfl),
    if_neg (apart (by decide) rfl), if_neg (apart (by decide) rfl)]

theorem parseValue_emptyObject (size fuel frames : Nat) {s r : Bytes} (st : List (Value D))
    (closes : skipWhitespace s = ch '}' :: r) :
    parseValue ops Document.handler size (fuel + 1) (frames + 1) (ch '{' :: s) st
      = .ok (r, .object [] :: st) := by
  have head : peek (ch '{' :: s) = ch '{' := rfl
  rw [parseValue]
  simp only [head, List.tail_cons, closes, consume_cons]
  have ended := endObject_ok [] st (tell size r)
  show (Document.handler.call (openObject [] st) (.endObject 0) (tell size r)
    >>= fun st => .ok (r, st)) = _
  rw [show Document.handler.call (openObject [] st) (.endObject 0) (tell size r) = _ from ended]
  rfl

theorem parseValue_members (size fuel frames : Nat) {s : Bytes} (st : List (Value D))
    (opens : peek (skipWhitespace s) ≠ ch '}') :
    parseValue ops Document.handler size (fuel + 1) (frames + 1) (ch '{' :: s) st
      = parseMembers ops Document.handler size fuel frames 0 (skipWhitespace s)
          (openObject [] st) := by
  have head : peek (ch '{' :: s) = ch '{' := rfl
  rw [parseValue]
  simp only [head, List.tail_cons, consume_of_ne opens]
  rfl

theorem parseValue_emptyArray (size fuel frames : Nat) {s r : Bytes} (st : List (Value D))
    (closes : skipWhitespace s = ch ']' :: r) :
    parseValue ops Document.handler size (fuel + 1) (frames + 1) (ch '[' :: s) st
      = .ok (r, .array [] :: st) := by
  have head : peek (ch '[' :: s) = ch '[' := rfl
  rw [parseValue]
  simp only [head, List.tail_cons, closes, consume_cons]
  have ended := endArray_ok [] st (tell size r)
  show (Document.handler.call (openArray [] st) (.endArray 0) (tell size r)
    >>= fun st => .ok (r, st)) = _
  rw [show Document.handler.call (openArray [] st) (.endArray 0) (tell size r) = _ from ended]
  rfl

theorem parseValue_elements (size fuel frames : Nat) {s : Bytes} (st : List (Value D))
    (opens : peek (skipWhitespace s) ≠ ch ']') :
    parseValue ops Document.handler size (fuel + 1) (frames + 1) (ch '[' :: s) st
      = parseElements ops Document.handler size fuel frames 0 (skipWhitespace s)
          (openArray [] st) := by
  have head : peek (ch '[' :: s) = ch '[' := rfl
  rw [parseValue]
  simp only [head, List.tail_cons, consume_of_ne opens]
  rfl

/-- One turn of the loop of an object, up to what stands after the value. -/
theorem parseMembers_member (size fuel frames : Nat) {key cs b₁ b₂ s r' : Bytes} {v : Value D}
    (ms : List (Value D × Value D)) (st : List (Value D)) (name : Chars key cs)
    (before : Blanks b₁) (after : Blanks b₂) (opens : isWhitespace (peek s) = false)
    (value : ∀ st, parseValue ops Document.handler size fuel frames s st = .ok (r', v :: st)) :
    (∀ s', skipWhitespace r' = ch ',' :: s' →
      parseMembers ops Document.handler size (fuel + 1) frames ms.length
          (quoted cs ++ (b₁ ++ ch ':' :: (b₂ ++ s))) (openObject ms st)
        = parseMembers ops Document.handler size fuel frames (ms ++ [(Value.string key, v)]).length
            (skipWhitespace s') (openObject (ms ++ [(Value.string key, v)]) st)) ∧
      (∀ r, skipWhitespace r' = ch '}' :: r →
        parseMembers ops Document.handler size (fuel + 1) frames ms.length
            (quoted cs ++ (b₁ ++ ch ':' :: (b₂ ++ s))) (openObject ms st)
          = .ok (r, .object (ms ++ [(Value.string key, v)]) :: st)) := by
  have colon : skipWhitespace (b₁ ++ ch ':' :: (b₂ ++ s)) = ch ':' :: (b₂ ++ s) :=
    skipWhitespace_blanks before rfl
  have turn : ∀ s', skipWhitespace r' = s' →
      parseMembers ops Document.handler size (fuel + 1) frames ms.length
          (quoted cs ++ (b₁ ++ ch ':' :: (b₂ ++ s))) (openObject ms st)
        = if peek s' = ch ',' then
            parseMembers ops Document.handler size fuel frames
              (ms ++ [(Value.string key, v)]).length (skipWhitespace s'.tail)
              (openObject (ms ++ [(Value.string key, v)]) st)
          else if peek s' = ch '}' then
            Document.handler.call (openObject (ms ++ [(Value.string key, v)]) st)
              (.endObject (ms ++ [(Value.string key, v)]).length) (tell size s'.tail)
              >>= fun st => .ok (s'.tail, st)
          else fail .objectMissCommaOrCurlyBracket (tell size s') := by
    rintro s' rfl
    rw [parseMembers, if_neg (fun h => h rfl), parseStringEvent_chars size .true name]
    simp only [bind, Except.bind, colon, consume_cons, skipWhitespace_blanks after opens, value,
      openObject_member, List.length_append, List.length_singleton]
  constructor
  · intro s' comma
    rw [turn _ comma]
    rfl
  · intro r closes
    rw [turn _ closes]
    show (Document.handler.call _ _ (tell size r) >>= _) = _
    rw [endObject_ok]
    rfl

/-- One turn of the loop of an array. -/
theorem parseElements_element (size fuel frames : Nat) {s r' : Bytes} {v : Value D}
    (vs : List (Value D)) (st : List (Value D))
    (value : ∀ st, parseValue ops Document.handler size fuel frames s st = .ok (r', v :: st)) :
    (∀ s', skipWhitespace r' = ch ',' :: s' →
      parseElements ops Document.handler size (fuel + 1) frames vs.length s (openArray vs st)
        = parseElements ops Document.handler size fuel frames (vs ++ [v]).length
            (skipWhitespace s') (openArray (vs ++ [v]) st)) ∧
      (∀ r, skipWhitespace r' = ch ']' :: r →
        parseElements ops Document.handler size (fuel + 1) frames vs.length s (openArray vs st)
          = .ok (r, .array (vs ++ [v]) :: st)) := by
  have count : vs.length + 1 = (vs ++ [v]).length := by
    rw [List.length_append, List.length_singleton]
  constructor
  · intro s' comma
    rw [parseElements, value]
    simp only [bind, Except.bind, comma, consume_cons, openArray_element, count]
  · intro r closes
    have noComma : consume (ch ',') (ch ']' :: r) = none := rfl
    rw [parseElements, value]
    simp only [bind, Except.bind, closes, noComma, consume_cons, openArray_element, count]
    rw [endArray_ok]

/-- A value takes some fuel and a frame of its own. -/
theorem step_of_room {v : Value D} {steps fuel frames : Nat} (enough : steps < fuel)
    (room : v.depth ≤ frames) : ∃ fuel' frames', fuel = fuel' + 1 ∧ frames = frames' + 1 := by
  obtain ⟨fuel', fueled⟩ := Nat.exists_eq_add_one_of_ne_zero (Nat.ne_zero_of_lt enough)
  obtain ⟨frames', framed⟩ :=
    Nat.exists_eq_add_one_of_ne_zero (Nat.ne_zero_of_lt (Nat.lt_of_lt_of_le (depth_pos v) room))
  exact ⟨fuel', frames', fueled, framed⟩

/-- **What is spelled is read**, as that phrase and no further. -/
theorem Spells.reads {p : Phrase D} {t : Bytes} (h : Spells (readDouble ops) p t) :
    p.Reads ops t := by
  induction h with
  | null =>
    intro size fuel frames r st enough room _
    obtain ⟨fuel, frames, rfl, rfl⟩ := step_of_room enough room
    exact parseLiteral_word size _ [ch 'u', ch 'l', ch 'l'] r rfl
  | true =>
    intro size fuel frames r st enough room _
    obtain ⟨fuel, frames, rfl, rfl⟩ := step_of_room enough room
    exact parseLiteral_word size _ [ch 'r', ch 'u', ch 'e'] r rfl
  | false =>
    intro size fuel frames r st enough room _
    obtain ⟨fuel, frames, rfl, rfl⟩ := step_of_room enough room
    exact parseLiteral_word size _ [ch 'a', ch 'l', ch 's', ch 'e'] r rfl
  | @string str cs chars =>
    intro size fuel frames r st enough room _
    obtain ⟨fuel, frames, rfl, rfl⟩ := step_of_room enough room
    exact parseStringEvent_chars size .false chars r st
  | @number t n tells =>
    intro size fuel frames r st enough room after
    obtain ⟨fuel, frames, rfl, rfl⟩ := step_of_room enough room
    obtain ⟨c, s, bytes, first⟩ := t.opens
    have read := parseNumberEvent_token size tells after st
    rw [bytes] at read ⊢
    exact (parseValue_number size fuel frames (s ++ r) st first).trans read
  | emptyObject blanks =>
    intro size fuel frames r st enough room _
    obtain ⟨fuel, frames, rfl, rfl⟩ := step_of_room enough room
    simp only [List.cons_append, List.append_assoc, List.nil_append]
    exact parseValue_emptyObject size fuel frames st (skipWhitespace_blanks blanks rfl)
  | @object b t ms blanks members ih =>
    intro size fuel frames r st enough room _
    obtain ⟨fuel, frames, rfl, rfl⟩ := step_of_room enough room
    simp only [List.length_cons, List.length_append, List.length_nil] at enough
    simp only [List.cons_append, List.append_assoc, List.nil_append]
    have first : peek (t ++ ch '}' :: r) = ch '"' := members.opens_append _
    have start : skipWhitespace (b ++ (t ++ ch '}' :: r)) = t ++ ch '}' :: r :=
      skipWhitespace_blanks blanks (first ▸ rfl)
    rw [parseValue_members size fuel frames st (by rw [start, first]; decide), start]
    exact ih size fuel frames r [] st (by omega) (Nat.le_of_succ_le_succ room)
  | emptyArray blanks =>
    intro size fuel frames r st enough room _
    obtain ⟨fuel, frames, rfl, rfl⟩ := step_of_room enough room
    simp only [List.cons_append, List.append_assoc, List.nil_append]
    exact parseValue_emptyArray size fuel frames st (skipWhitespace_blanks blanks rfl)
  | @array b t vs blanks elements ih =>
    intro size fuel frames r st enough room _
    obtain ⟨fuel, frames, rfl, rfl⟩ := step_of_room enough room
    simp only [List.length_cons, List.length_append, List.length_nil] at enough
    simp only [List.cons_append, List.append_assoc, List.nil_append]
    obtain ⟨stops, other, -⟩ := startsValue_iff.mp (elements.opens_append (ch ']' :: r))
    have start : skipWhitespace (b ++ (t ++ ch ']' :: r)) = t ++ ch ']' :: r :=
      skipWhitespace_blanks blanks stops
    rw [parseValue_elements size fuel frames st (by rw [start]; exact other), start]
    exact ih size fuel frames r [] st (by omega) (Nat.le_of_succ_le_succ room)
  | @member key cs b₁ b₂ t b₃ v name before after value close ih =>
    intro size fuel frames r ms₀ st enough room
    obtain ⟨fuel, rfl⟩ := Nat.exists_eq_add_one_of_ne_zero (Nat.ne_zero_of_lt enough)
    obtain ⟨first, others⟩ := Nat.max_le.mp room
    simp only [List.length_cons, List.length_append] at enough
    simp only [List.cons_append, List.append_assoc]
    obtain ⟨stops, -⟩ := startsValue_iff.mp (value.opens_append (b₃ ++ ch '}' :: r))
    have ended : AfterValue (b₃ ++ ch '}' :: r) := .blanks close (.inr (.inr (.inl rfl)))
    exact (parseMembers_member size fuel frames ms₀ st name before after stops
      fun st => ih size fuel frames _ st (by omega) first ended).2 r
        (skipWhitespace_blanks close rfl)
  | @moreMembers key cs b₁ b₂ t b₃ b₄ t' v ms name before after value comma next rest ih ih' =>
    intro size fuel frames r ms₀ st enough room
    obtain ⟨fuel, rfl⟩ := Nat.exists_eq_add_one_of_ne_zero (Nat.ne_zero_of_lt enough)
    obtain ⟨first, others⟩ := Nat.max_le.mp room
    simp only [List.length_cons, List.length_append] at enough
    simp only [List.cons_append, List.append_assoc]
    obtain ⟨stops, -⟩ :=
      startsValue_iff.mp (value.opens_append (b₃ ++ ch ',' :: (b₄ ++ (t' ++ ch '}' :: r))))
    have ended : AfterValue (b₃ ++ ch ',' :: (b₄ ++ (t' ++ ch '}' :: r))) :=
      .blanks comma (.inr (.inl rfl))
    have quotation : peek (t' ++ ch '}' :: r) = ch '"' := rest.opens_append _
    have turn := (parseMembers_member size fuel frames ms₀ st name before after stops
      fun st => ih size fuel frames _ st (by omega) first ended).1 _
        (skipWhitespace_blanks comma rfl)
    rw [skipWhitespace_blanks next (quotation ▸ rfl)] at turn
    rw [List.append_cons ms₀]
    exact turn.trans (ih' size fuel frames r _ st (by omega) others)
  | @element t b v value close ih =>
    intro size fuel frames r vs₀ st enough room
    obtain ⟨fuel, rfl⟩ := Nat.exists_eq_add_one_of_ne_zero (Nat.ne_zero_of_lt enough)
    obtain ⟨first, others⟩ := Nat.max_le.mp room
    simp only [List.length_append] at enough
    rw [List.append_assoc]
    have ended : AfterValue (b ++ ch ']' :: r) := .blanks close (.inr (.inr (.inr (.inl rfl))))
    exact (parseElements_element size fuel frames vs₀ st
      fun st => ih size fuel frames _ st (by omega) first ended).2 r
        (skipWhitespace_blanks close rfl)
  | @moreElements t b b' t' v vs value comma next rest ih ih' =>
    intro size fuel frames r vs₀ st enough room
    obtain ⟨fuel, rfl⟩ := Nat.exists_eq_add_one_of_ne_zero (Nat.ne_zero_of_lt enough)
    obtain ⟨first, others⟩ := Nat.max_le.mp room
    simp only [List.length_cons, List.length_append] at enough
    simp only [List.cons_append, List.append_assoc]
    obtain ⟨stops, -⟩ := startsValue_iff.mp (rest.opens_append (ch ']' :: r))
    have ended : AfterValue (b ++ ch ',' :: (b' ++ (t' ++ ch ']' :: r))) :=
      .blanks comma (.inr (.inl rfl))
    have turn := (parseElements_element size fuel frames vs₀ st
      fun st => ih size fuel frames _ st (by omega) first ended).1 _
        (skipWhitespace_blanks comma rfl)
    rw [skipWhitespace_blanks next stops] at turn
    rw [List.append_cons vs₀]
    exact turn.trans (ih' size fuel frames r _ st (by omega) others)

/-! ## What is read is spelled -/

/-- A result with this property, a parse error or, where that may be, an overflow. -/
def DeliversUnless {α : Type} (size : Nat) (deep : Prop) (Q : α → Prop) : Outcome α → Prop
  | .ok a => Q a
  | .error stop => stop.Coded size ∨ stop = .overflow ∧ deep

namespace DeliversUnless

variable {α β : Type} {size : Nat} {deep deep' : Prop} {P P' : α → Prop} {Q : β → Prop}

theorem fail {code : ParseErrorCode} {offset : Nat} (inside : offset ≤ size) :
    DeliversUnless size deep P (Rapidjson.fail code offset) :=
  .inl ⟨code, offset, rfl, inside⟩

theorem bind {o : Outcome α} {f : α → Outcome β} (first : DeliversUnless size deep P o)
    (next : ∀ a, P a → DeliversUnless size deep Q (f a)) :
    DeliversUnless size deep Q (o >>= f) := by
  cases o with
  | ok a => exact next a first
  | error stop => exact first

theorem mono {o : Outcome α} (h : DeliversUnless size deep P o) (deeper : deep → deep')
    (weaker : ∀ a, P a → P' a) : DeliversUnless size deep' P' o := by
  cases o with
  | ok a => exact weaker a h
  | error stop => exact h.imp_right fun overflow => ⟨overflow.1, deeper overflow.2⟩

end DeliversUnless

/-- A token never overflows. -/
theorem Delivers.unless {α : Type} {size : Nat} {P : α → Prop} {o : Outcome α}
    (h : Delivers size P o) (deep : Prop) : DeliversUnless size deep P o := by
  cases o with
  | ok a => exact h
  | error stop => exact .inl h

section Read

variable (ops) (size fuel frames : Nat)

/-- What a value delivers. -/
def DeliversValue : Prop := ∀ s st, 2 * s.length < fuel →
  DeliversUnless size (frames ≤ opening s)
    (fun x => ∃ v t, Spells (readDouble ops) (.value v) t ∧ v.depth ≤ frames ∧ s = t ++ x.1 ∧
      x.2 = v :: st)
    (parseValue ops Document.handler size fuel frames s st)

/-- What the loop of an object delivers, after some members. -/
def DeliversMembers : Prop := ∀ s ms₀ st, 2 * s.length + 1 < fuel →
  DeliversUnless size (frames ≤ opening s)
    (fun x => ∃ ms t, Spells (readDouble ops) (.members ms) t ∧ membersDepth ms ≤ frames ∧
      s = t ++ ch '}' :: x.1 ∧ x.2 = .object (ms₀ ++ ms) :: st)
    (parseMembers ops Document.handler size fuel frames ms₀.length s (openObject ms₀ st))

/-- What the loop of an array delivers, after some elements. -/
def DeliversElements : Prop := ∀ s vs₀ st, 2 * s.length + 1 < fuel →
  DeliversUnless size (frames ≤ opening s)
    (fun x => ∃ vs t, Spells (readDouble ops) (.elements vs) t ∧ elementsDepth vs ≤ frames ∧
      s = t ++ ch ']' :: x.1 ∧ x.2 = .array (vs₀ ++ vs) :: st)
    (parseElements ops Document.handler size fuel frames vs₀.length s (openArray vs₀ st))

variable {ops size fuel frames}

theorem parseLiteral_delivers {c : UInt8} {word : Bytes} (some : word.all (· != 0) = true)
    (s : Bytes) {e : Event D} {st st' : List (Value D)}
    (call : Document.handler st e = .ok (st', true)) :
    Delivers size (fun x => c :: s = c :: word ++ x.1 ∧ x.2 = st')
      (parseLiteral Document.handler size word e (c :: s) st) := by
  rw [parseLiteral, List.tail_cons]
  cases read : consumeAll word s with
  | mk r found =>
    cases found with
    | false => exact .fail (tell_le _ _)
    | true =>
      dsimp only
      rw [consumeAll_ok some read, Handler.call_ok _ call]
      exact ⟨rfl, rfl⟩

theorem parseStringEvent_delivers (isKey : Bool) {s : Bytes} (opens : peek s = ch '"')
    (st : List (Value D)) :
    Delivers size (fun x => ∃ str cs, Chars str cs ∧ s = quoted cs ++ x.1 ∧
        x.2 = .string str :: st)
      (parseStringEvent Document.handler size isKey s st) := by
  refine (parseString_lexes size opens).bind ?_
  rintro ⟨str, r⟩ ⟨cs, chars, rest⟩
  have call : ∀ offset, Document.handler.call st
      (if isKey then Event.key str else .string str) offset = .ok (.string str :: st) := by
    intro offset
    cases isKey <;> rfl
  dsimp only
  rw [call]
  exact ⟨str, cs, chars, rest, rfl⟩

theorem parseNumberEvent_delivers (s : Bytes) (st : List (Value D)) :
    Delivers size (fun x => ∃ n t, Spells (readDouble ops) (.value (.number n)) t ∧
        s = t ++ x.1 ∧ x.2 = .number n :: st)
      (parseNumberEvent ops Document.handler size s st) := by
  refine (parseNumber_delivers size s).bind ?_
  rintro ⟨n, r⟩ ⟨t, rest, tells⟩
  exact ⟨n, t.bytes, .number tells, rest, rfl⟩

theorem deliversElements_succ (value : DeliversValue ops size fuel frames)
    (elements : DeliversElements ops size fuel frames) :
    DeliversElements ops size (fuel + 1) frames := by
  intro s vs₀ st enough
  rw [parseElements]
  refine (value s (openArray vs₀ st) (by omega)).bind ?_
  rintro ⟨r', st'⟩ ⟨v, t, spells, shallow, rest, same⟩
  dsimp only at rest same ⊢
  subst same
  obtain ⟨b, blanks, skipped⟩ := skipWhitespace_split r'
  have count : vs₀.length + 1 = (vs₀ ++ [v]).length := by
    rw [List.length_append, List.length_singleton]
  rw [openArray_element, count]
  cases comma : consume (ch ',') (skipWhitespace r') with
  | some s' =>
    have isComma := eq_cons_of_consume comma rfl
    obtain ⟨b', blanks', skipped'⟩ := skipWhitespace_split s'
    have start : s = (t ++ (b ++ ch ',' :: b')) ++ skipWhitespace s' := by
      rw [List.append_assoc, List.append_assoc, List.cons_append, ← skipped', ← isComma, ← skipped,
        rest]
    have length := congrArg List.length start
    simp only [List.length_append, List.length_cons] at length
    have opened : opening (skipWhitespace s') ≤ opening s := by
      rw [start]
      exact opening_le_append _ _
    refine (elements (skipWhitespace s') (vs₀ ++ [v]) st (by omega)).mono
      (fun deep => Nat.le_trans deep opened) ?_
    rintro ⟨r, st'⟩ ⟨vs, t', more, shallow', rest', same⟩
    refine ⟨v :: vs, _, .moreElements spells blanks blanks' more,
      Nat.max_le.mpr ⟨shallow, shallow'⟩, ?_, ?_⟩
    · rw [start, rest']
      simp only [List.append_assoc, List.cons_append]
    · rw [same, ← List.append_cons]
  | none =>
    cases close : consume (ch ']') (skipWhitespace r') with
    | none => exact .fail (tell_le _ _)
    | some r =>
      have isClose := eq_cons_of_consume close rfl
      dsimp only
      rw [endArray_ok]
      refine ⟨[v], _, .element spells blanks, Nat.max_le.mpr ⟨shallow, Nat.zero_le _⟩, ?_, rfl⟩
      rw [rest, skipped, isClose, List.append_assoc]

theorem deliversMembers_succ (value : DeliversValue ops size fuel frames)
    (members : DeliversMembers ops size fuel frames) :
    DeliversMembers ops size (fuel + 1) frames := by
  intro s ms₀ st enough
  rw [parseMembers]
  by_cases opens : peek s = ch '"'
  · rw [if_neg (not_not_intro opens)]
    refine ((parseStringEvent_delivers true opens _).unless _).bind ?_
    rintro ⟨s₁, st₁⟩ ⟨key, cs, name, rest, same⟩
    dsimp only at rest same ⊢
    subst same
    obtain ⟨b₁, before, skipped₁⟩ := skipWhitespace_split s₁
    cases colon : consume (ch ':') (skipWhitespace s₁) with
    | none => exact .fail (tell_le _ _)
    | some s₂ =>
      have isColon := eq_cons_of_consume colon rfl
      obtain ⟨b₂, after, skipped₂⟩ := skipWhitespace_split s₂
      have shorter := length_skipWhitespace_le s₂
      have start : s = (quoted cs ++ (b₁ ++ ch ':' :: b₂)) ++ skipWhitespace s₂ := by
        rw [List.append_assoc, List.append_assoc, List.cons_append, ← skipped₂, ← isColon,
          ← skipped₁, rest]
      have length := congrArg List.length start
      simp only [List.length_append, List.length_cons] at length
      have opened : opening (skipWhitespace s₂) ≤ opening s := by
        rw [start]
        exact opening_le_append _ _
      refine ((value (skipWhitespace s₂) (.string key :: openObject ms₀ st) (by omega)).mono
        (fun deep => Nat.le_trans deep opened) fun _ delivered => delivered).bind ?_
      rintro ⟨s₃, st₃⟩ ⟨v, t, spells, shallow, rest₃, same⟩
      dsimp only at rest₃ same ⊢
      subst same
      obtain ⟨b₃, blanks, skipped₃⟩ := skipWhitespace_split s₃
      have count : ms₀.length + 1 = (ms₀ ++ [(Value.string key, v)]).length := by
        rw [List.length_append, List.length_singleton]
      rw [openObject_member, count]
      by_cases comma : peek (skipWhitespace s₃) = ch ','
      · have isComma := eq_cons_of_consume (if_pos comma) rfl
        obtain ⟨b₄, next, skipped₄⟩ := skipWhitespace_split (skipWhitespace s₃).tail
        have start' : s = (quoted cs ++ (b₁ ++ ch ':' :: b₂)) ++ (t ++ (b₃ ++ ch ',' :: b₄)) ++
            skipWhitespace (skipWhitespace s₃).tail := by
          rw [List.append_assoc _ (t ++ _), List.append_assoc t, List.append_assoc b₃,
            List.cons_append, ← skipped₄, ← isComma, ← skipped₃, ← rest₃, start]
        have length := congrArg List.length start'
        simp only [List.length_append, List.length_cons] at length
        have opened : opening (skipWhitespace (skipWhitespace s₃).tail) ≤ opening s := by
          rw [start']
          exact opening_le_append _ _
        rw [if_pos comma]
        refine (members (skipWhitespace (skipWhitespace s₃).tail) (ms₀ ++ [(.string key, v)]) st
          (by omega)).mono (fun deep => Nat.le_trans deep opened) ?_
        rintro ⟨r, st'⟩ ⟨ms, t', more, shallow', rest', same⟩
        refine ⟨(.string key, v) :: ms, _, .moreMembers name before after spells blanks next more,
          Nat.max_le.mpr ⟨shallow, shallow'⟩, ?_, ?_⟩
        · rw [start', rest']
          simp only [List.append_assoc, List.cons_append]
        · rw [same, ← List.append_cons]
      · rw [if_neg comma]
        split
        · next close =>
          have isClose := eq_cons_of_consume (if_pos close) rfl
          have start' : s = (quoted cs ++ (b₁ ++ ch ':' :: b₂)) ++ (t ++ (b₃ ++ ch '}' ::
              (skipWhitespace s₃).tail)) := by
            rw [← isClose, ← skipped₃, ← rest₃, start]
          rw [endObject_ok]
          refine ⟨[(.string key, v)], _, .member name before after spells blanks,
            Nat.max_le.mpr ⟨shallow, Nat.zero_le _⟩, ?_, rfl⟩
          simpa only [List.append_assoc, List.cons_append] using start'
        · exact .fail (tell_le _ _)
  · rw [if_pos opens]
    exact .fail (tell_le _ _)

/-- What stands after an opening bracket and blanks has one bracket less. -/
theorem opening_skipWhitespace {c : UInt8} (opens : opensValue c = true) (s : Bytes) :
    opening (skipWhitespace s) + 1 ≤ opening (c :: s) := by
  obtain ⟨b, -, skipped⟩ := skipWhitespace_split s
  have rest := opening_le_append b (skipWhitespace s)
  rw [← skipped] at rest
  rw [opening, opening, List.countP_cons_of_pos opens]
  exact Nat.succ_le_succ rest

theorem delivers_object (members : DeliversMembers ops size fuel frames) {s : Bytes}
    (st : List (Value D)) (enough : 2 * s.length + 1 < fuel) :
    DeliversUnless size (frames + 1 ≤ opening (ch '{' :: s))
      (fun x => ∃ v t, Spells (readDouble ops) (.value v) t ∧ v.depth ≤ frames + 1 ∧
        ch '{' :: s = t ++ x.1 ∧ x.2 = v :: st)
      (parseValue ops Document.handler size (fuel + 1) (frames + 1) (ch '{' :: s) st) := by
  obtain ⟨b, blanks, skipped⟩ := skipWhitespace_split s
  have shorter := length_skipWhitespace_le s
  by_cases close : peek (skipWhitespace s) = ch '}'
  · have isClose := eq_cons_of_consume (if_pos close) rfl
    rw [parseValue_emptyObject size fuel frames st isClose]
    refine ⟨_, _, .emptyObject blanks, Nat.le_add_left 1 frames, ?_, rfl⟩
    rw [List.cons_append, List.append_assoc, List.singleton_append, ← isClose, ← skipped]
  · rw [parseValue_members size fuel frames st close]
    refine (members (skipWhitespace s) [] st (by omega)).mono
      (fun deep => Nat.le_trans (Nat.succ_le_succ deep) (opening_skipWhitespace rfl s)) ?_
    rintro ⟨r, st'⟩ ⟨ms, t, spells, shallow, rest, same⟩
    refine ⟨_, _, .object blanks spells, Nat.succ_le_succ shallow, ?_, same⟩
    rw [List.cons_append, List.append_assoc, List.append_assoc, List.singleton_append, ← rest,
      ← skipped]

theorem delivers_array (elements : DeliversElements ops size fuel frames) {s : Bytes}
    (st : List (Value D)) (enough : 2 * s.length + 1 < fuel) :
    DeliversUnless size (frames + 1 ≤ opening (ch '[' :: s))
      (fun x => ∃ v t, Spells (readDouble ops) (.value v) t ∧ v.depth ≤ frames + 1 ∧
        ch '[' :: s = t ++ x.1 ∧ x.2 = v :: st)
      (parseValue ops Document.handler size (fuel + 1) (frames + 1) (ch '[' :: s) st) := by
  obtain ⟨b, blanks, skipped⟩ := skipWhitespace_split s
  have shorter := length_skipWhitespace_le s
  by_cases close : peek (skipWhitespace s) = ch ']'
  · have isClose := eq_cons_of_consume (if_pos close) rfl
    rw [parseValue_emptyArray size fuel frames st isClose]
    refine ⟨_, _, .emptyArray blanks, Nat.le_add_left 1 frames, ?_, rfl⟩
    rw [List.cons_append, List.append_assoc, List.singleton_append, ← isClose, ← skipped]
  · rw [parseValue_elements size fuel frames st close]
    refine (elements (skipWhitespace s) [] st (by omega)).mono
      (fun deep => Nat.le_trans (Nat.succ_le_succ deep) (opening_skipWhitespace rfl s)) ?_
    rintro ⟨r, st'⟩ ⟨vs, t, spells, shallow, rest, same⟩
    refine ⟨_, _, .array blanks spells, Nat.succ_le_succ shallow, ?_, same⟩
    rw [List.cons_append, List.append_assoc, List.append_assoc, List.singleton_append, ← rest,
      ← skipped]

theorem delivers_literal {c : UInt8} {word : Bytes} (some : word.all (· != 0) = true) (s : Bytes)
    {e : Event D} {st : List (Value D)} {v : Value D}
    (call : Document.handler st e = .ok (v :: st, true))
    (spells : Spells (readDouble ops) (.value v) (c :: word)) (room : v.depth ≤ frames)
    (deep : Prop) :
    DeliversUnless size deep
      (fun x => ∃ v t, Spells (readDouble ops) (.value v) t ∧ v.depth ≤ frames ∧
        c :: s = t ++ x.1 ∧ x.2 = v :: st)
      (parseLiteral Document.handler size word e (c :: s) st) := by
  refine ((parseLiteral_delivers some s call).unless deep).mono id ?_
  rintro ⟨r, st'⟩ ⟨rest, same⟩
  exact ⟨v, c :: word, spells, room, rest, same⟩

theorem deliversValue_succ (members : DeliversMembers ops size fuel frames)
    (elements : DeliversElements ops size fuel frames) :
    DeliversValue ops size (fuel + 1) (frames + 1) := by
  have flat : 1 ≤ frames + 1 := Nat.le_add_left 1 frames
  intro s st enough
  cases s with
  | nil =>
    refine ((parseNumberEvent_delivers [] st).unless _).mono id ?_
    rintro ⟨r, st'⟩ ⟨n, t, spells, rest, same⟩
    exact ⟨_, t, spells, flat, rest, same⟩
  | cons c s =>
    rw [List.length_cons] at enough
    by_cases brace : c = ch '{'
    · subst brace
      exact delivers_object members st (by omega)
    by_cases bracket : c = ch '['
    · subst bracket
      exact delivers_array elements st (by omega)
    have head : peek (c :: s) = c := rfl
    rw [parseValue]
    simp only [head, if_neg brace, if_neg bracket]
    split
    · next isN =>
      subst isN
      exact delivers_literal rfl s rfl .null flat _
    split
    · next isT =>
      subst isT
      exact delivers_literal rfl s rfl .true flat _
    split
    · next isF =>
      subst isF
      exact delivers_literal rfl s rfl .false flat _
    split
    · next quotation =>
      refine ((@parseStringEvent_delivers D size .false (c :: s) quotation st).unless _).mono id ?_
      rintro ⟨r, st'⟩ ⟨str, cs, chars, rest, same⟩
      exact ⟨_, _, .string chars, flat, rest, same⟩
    · refine ((parseNumberEvent_delivers (c :: s) st).unless _).mono id ?_
      rintro ⟨r, st'⟩ ⟨n, t, spells, rest, same⟩
      exact ⟨_, t, spells, flat, rest, same⟩

/-- **Whatever is read is spelled**, and twice the length of a text is more fuel than it takes. -/
theorem delivers (fuel frames : Nat) :
    DeliversValue ops size fuel frames ∧ DeliversMembers ops size fuel frames ∧
      DeliversElements ops size fuel frames := by
  induction fuel generalizing frames with
  | zero =>
    exact ⟨fun _ _ enough => absurd enough (Nat.not_lt_zero _),
      fun _ _ _ enough => absurd enough (Nat.not_lt_zero _),
      fun _ _ _ enough => absurd enough (Nat.not_lt_zero _)⟩
  | succ fuel ih =>
    obtain ⟨value, members, elements⟩ := ih frames
    refine ⟨?_, deliversMembers_succ value members, deliversElements_succ value elements⟩
    cases frames with
    | zero => exact fun s _ _ => .inr ⟨rfl, Nat.zero_le _⟩
    | succ frames => exact deliversValue_succ (ih frames).2.1 (ih frames).2.2

end Read

/-! ## More frames -/

/-- With more frames the outcome is the same, unless it was an overflow. -/
def Steady {α : Type} (o o' : Outcome α) : Prop := o = .error .overflow ∨ o' = o

theorem Steady.refl {α : Type} (o : Outcome α) : Steady o o := .inr rfl

theorem Steady.bind {α β : Type} {o o' : Outcome α} {f f' : α → Outcome β} (first : Steady o o')
    (next : ∀ a, Steady (f a) (f' a)) : Steady (o >>= f) (o' >>= f') := by
  rcases first with rfl | rfl
  · exact .inl rfl
  · cases o' with
    | ok a => exact next a
    | error stop => exact .inr rfl

theorem ite_steady {α : Type} {c : Prop} [Decidable c] {o o' p p' : Outcome α}
    (yes : Steady o o') (no : Steady p p') :
    Steady (if c then o else p) (if c then o' else p') := by
  split
  · exact yes
  · exact no

section Frames

variable {σ : Type} (handler : Handler D σ) (size : Nat)

/-- The three that call one another, with as much fuel. -/
theorem parse_steady (fuel : Nat) {frames frames' : Nat} (more : frames ≤ frames') :
    (∀ s st, Steady (parseValue ops handler size fuel frames s st)
        (parseValue ops handler size fuel frames' s st)) ∧
      (∀ k s st, Steady (parseMembers ops handler size fuel frames k s st)
        (parseMembers ops handler size fuel frames' k s st)) ∧
      ∀ k s st, Steady (parseElements ops handler size fuel frames k s st)
        (parseElements ops handler size fuel frames' k s st) := by
  induction fuel generalizing frames frames' with
  | zero => exact ⟨fun _ _ => .refl _, fun _ _ _ => .refl _, fun _ _ _ => .refl _⟩
  | succ fuel ih =>
    obtain ⟨value, members, elements⟩ := ih more
    refine ⟨fun s st => ?_, fun k s st => ?_, fun k s st => ?_⟩
    · cases frames with
      | zero => exact .inl rfl
      | succ frames =>
        obtain ⟨frames', rfl⟩ := Nat.exists_eq_add_one_of_ne_zero (Nat.ne_zero_of_lt more)
        obtain ⟨-, members, elements⟩ := ih (Nat.le_of_succ_le_succ more)
        rw [parseValue, parseValue]
        refine ite_steady (.refl _) (ite_steady (.refl _) (ite_steady (.refl _)
          (ite_steady (.refl _) (ite_steady ?_ (ite_steady ?_ (.refl _))))))
        · refine .bind (.refl _) fun st => ?_
          dsimp only
          cases consume (ch '}') (skipWhitespace s.tail) with
          | some s => exact .refl _
          | none => exact members _ _ _
        · refine .bind (.refl _) fun st => ?_
          dsimp only
          cases consume (ch ']') (skipWhitespace s.tail) with
          | some s => exact .refl _
          | none => exact elements _ _ _
    · rw [parseMembers, parseMembers]
      refine ite_steady (.refl _) (.bind (.refl _) ?_)
      rintro ⟨s, st⟩
      dsimp only
      cases consume (ch ':') (skipWhitespace s) with
      | none => exact .refl _
      | some s =>
        refine .bind (value _ _) ?_
        rintro ⟨s, st⟩
        dsimp only
        exact ite_steady (members _ _ _) (.refl _)
    · rw [parseElements, parseElements]
      refine .bind (value _ _) ?_
      rintro ⟨s, st⟩
      dsimp only
      cases consume (ch ',') (skipWhitespace s) with
      | some s => exact elements _ _ _
      | none => exact .refl _

end Frames

/-! ## Documents -/

theorem isEnd_iff {rest : Bytes} : IsEnd rest ↔ peek rest = 0 := by
  cases rest with
  | nil => exact ⟨fun _ => rfl, fun _ => .inl rfl⟩
  | cons c r =>
    constructor
    · rintro (none | ⟨r', same⟩)
      · cases none
      · exact (List.cons.inj same).1
    · rintro (rfl : c = 0)
      exact .inr ⟨r, rfl⟩

/-- Before ASCII each byte of a mark is skipped that is there. -/
theorem skipByteOrderMark_append {mark s : Bytes} (isMark : IsMark mark) (small : peek s < 0x80) :
    skipByteOrderMark (mark ++ s) = s := by
  have other : ∀ {b : UInt8}, 0x80 ≤ b → ¬ peek s = b := by
    rintro b high rfl
    exact absurd small (UInt8.not_lt.mpr high)
  have notEF := other (by decide : (0x80 : UInt8) ≤ 0xEF)
  have notBB := other (by decide : (0x80 : UInt8) ≤ 0xBB)
  have notBF := other (by decide : (0x80 : UInt8) ≤ 0xBF)
  have head : ∀ c r, peek (c :: r) = c := fun _ _ => rfl
  -- each of the three is there or not
  rcases List.sublist_cons_iff.mp isMark with sub₁ | ⟨m₁, rfl, sub₁⟩ <;>
    rcases List.sublist_cons_iff.mp sub₁ with sub₂ | ⟨m₂, rfl, sub₂⟩ <;>
      rcases List.sublist_cons_iff.mp sub₂ with sub₃ | ⟨m₃, rfl, sub₃⟩ <;>
        obtain rfl := List.sublist_nil.mp sub₃ <;>
          simp [skipByteOrderMark, head, notEF, notBB, notBF]

/-- What is skipped is some bytes of a mark. -/
theorem skipByteOrderMark_split (s : Bytes) :
    ∃ mark, IsMark mark ∧ s = mark ++ skipByteOrderMark s := by
  have one : ∀ {c : UInt8}, (c != 0) = true → ∀ s, ∃ m : Bytes, m.Sublist [c] ∧
      s = m ++ (if peek s = c then s.tail else s) := by
    intro c some s
    by_cases first : peek s = c
    · rw [if_pos first]
      exact ⟨[c], .refl _, eq_cons_of_consume (if_pos first) some⟩
    · rw [if_neg first]
      exact ⟨[], List.nil_sublist _, rfl⟩
  obtain ⟨m₁, sub₁, skipped₁⟩ := @one 0xEF rfl s
  obtain ⟨m₂, sub₂, skipped₂⟩ := @one 0xBB rfl (if peek s = 0xEF then s.tail else s)
  obtain ⟨m₃, sub₃, skipped₃⟩ := @one 0xBF rfl (if peek (if peek s = 0xEF then s.tail else s) = 0xBB
    then (if peek s = 0xEF then s.tail else s).tail else (if peek s = 0xEF then s.tail else s))
  refine ⟨m₁ ++ (m₂ ++ m₃), sub₁.append (sub₂.append sub₃), ?_⟩
  rw [List.append_assoc, List.append_assoc]
  exact skipped₁.trans (congrArg (m₁ ++ ·) (skipped₂.trans (congrArg (m₂ ++ ·) skipped₃)))

/-- A text of a value starts in ASCII, whatever blanks stand before it. -/
theorem Spells.ascii {b t r : Bytes} {v : Value D} (blanks : Blanks b)
    (spells : Spells double (.value v) t) : peek (b ++ (t ++ r)) < 0x80 := by
  cases b with
  | nil => exact (startsValue_iff.mp (spells.opens_append r)).2.2.2
  | cons c b =>
    show c < 0x80
    rcases blanks c List.mem_cons_self with rfl | rfl | rfl | rfl <;> decide

/-- A document that its text spells is parsed, if the call stack holds it. -/
theorem Says.parseIn {frames : Nat} {str : Bytes} {v : Value D}
    (told : Says (readDouble ops) str v) (room : v.depth ≤ frames) :
    Document.parseIn frames ops str = .ok v := by
  obtain ⟨mark, b, t, b', rest, text, isMark, blanks, spells, blanks', isEnd⟩ := told
  have nul := isEnd_iff.mp isEnd
  have start : skipByteOrderMark str = b ++ (t ++ (b' ++ rest)) := by
    rw [text]
    exact skipByteOrderMark_append isMark (spells.ascii blanks)
  obtain ⟨stops, -, some, -⟩ := startsValue_iff.mp (spells.opens_append (b' ++ rest))
  have ended : AfterValue (b' ++ rest) := .blanks blanks' (.inr (.inr (.inr (.inr nul))))
  have ends : skipWhitespace (b' ++ rest) = rest := skipWhitespace_blanks blanks' (nul ▸ rfl)
  have read := spells.reads str.length (2 * (t ++ (b' ++ rest)).length + 1) frames _ []
    (by rw [List.length_append]; omega) room ended
  have root : Rapidjson.parse ops Document.handler str.length frames (skipByteOrderMark str) []
      = .ok [v] := by
    unfold Rapidjson.parse
    simp only [start, skipWhitespace_blanks blanks stops]
    rw [if_neg some, read]
    show (if peek (skipWhitespace (b' ++ rest)) ≠ 0 then _ else Except.ok [v]) = _
    rw [ends, if_neg (not_not_intro nul)]
  unfold Document.parseIn
  rw [root]
  rfl

theorem parseIn_delivers (ops : DoubleOps D) (frames : Nat) (str : Bytes) :
    DeliversUnless str.length (frames ≤ opening str)
      (fun v => Says (readDouble ops) str v ∧ v.depth ≤ frames)
      (Document.parseIn frames ops str) := by
  obtain ⟨mark, isMark, marked⟩ := skipByteOrderMark_split str
  obtain ⟨b, blanks, skipped⟩ := skipWhitespace_split (skipByteOrderMark str)
  have start : str = (mark ++ b) ++ skipWhitespace (skipByteOrderMark str) := by
    rw [List.append_assoc, ← skipped, ← marked]
  have opened : opening (skipWhitespace (skipByteOrderMark str)) ≤ opening str := by
    conv => rhs; rw [start]
    exact opening_le_append _ _
  have root : DeliversUnless str.length (frames ≤ opening str)
      (fun st => ∃ v, st = [v] ∧ Says (readDouble ops) str v ∧ v.depth ≤ frames)
      (Rapidjson.parse ops Document.handler str.length frames (skipByteOrderMark str) []) := by
    unfold Rapidjson.parse
    dsimp only
    split
    · exact .fail (tell_le _ _)
    · obtain ⟨value, -, -⟩ := @delivers D ops str.length
        (2 * (skipWhitespace (skipByteOrderMark str)).length + 1) frames
      refine ((value _ [] (Nat.lt_succ_self _)).mono (fun deep => Nat.le_trans deep opened)
        fun _ delivered => delivered).bind ?_
      rintro ⟨r, st⟩ ⟨v, t, spells, shallow, rest, same⟩
      obtain ⟨b', blanks', skipped'⟩ := skipWhitespace_split r
      dsimp only at rest same ⊢
      split
      · exact .fail (tell_le _ _)
      · next nul =>
        have isEnd := isEnd_iff.mpr (Decidable.not_not.mp nul)
        refine ⟨v, same, ⟨mark, b, t, b', skipWhitespace r, ?_, isMark, blanks, spells, blanks',
          isEnd⟩, shallow⟩
        rw [← skipped', ← rest, ← List.append_assoc, ← start]
  refine root.bind ?_
  rintro st ⟨v, rfl, told⟩
  exact told

/-- **The reader and the grammar agree**: the document of a text is the one that it spells, if the
call stack has a frame for each of the values that stand within one another. -/
theorem parse_iff (ops : DoubleOps D) (frames : Nat) (str : Bytes) (v : Value D) :
    Document.parseIn frames ops str = .ok v
      ↔ Says (readDouble ops) str v ∧ v.depth ≤ frames := by
  constructor
  · intro parsed
    have delivered := parseIn_delivers ops frames str
    rwa [parsed] at delivered
  · rintro ⟨told, room⟩
    exact told.parseIn room

/-- More frames change nothing but an overflow. -/
theorem parseIn_steady (ops : DoubleOps D) {frames frames' : Nat} (more : frames ≤ frames')
    (str : Bytes) :
    Steady (Document.parseIn frames ops str) (Document.parseIn frames' ops str) := by
  refine .bind ?_ fun st => .refl _
  unfold Rapidjson.parse
  dsimp only
  refine ite_steady (.refl _) (.bind ((parse_steady _ _ _ more).1 _ _) ?_)
  rintro ⟨s, st⟩
  exact .refl _

/-- The document of a text, on a call stack with room for it, is the one that it spells. -/
theorem parse_eq_ok_iff {str : Bytes} {v : Value D} :
    Document.parse ops str = .ok v ↔ Says (readDouble ops) str v := by
  refine (parse_iff ops _ str v).trans ⟨And.left, fun told => ⟨told, ?_⟩⟩
  exact Nat.le_trans told.depth_le (Nat.succ_le_succ List.countP_le_length)

theorem Says.parse {str : Bytes} {v : Value D} (told : Says (readDouble ops) str v) :
    Document.parse ops str = .ok v :=
  parse_eq_ok_iff.mpr told

/-- Any call stack with more frames than the text has opening brackets will do. -/
theorem parseIn_of_room {frames : Nat} {str : Bytes} (room : opening str < frames) :
    Document.parseIn frames ops str = Document.parse ops str := by
  have steady := parseIn_steady ops
    (show opening str + 1 ≤ str.length + 1 from Nat.succ_le_succ List.countP_le_length) str
  have steady' := parseIn_steady ops (show opening str + 1 ≤ frames from room) str
  have kept : Document.parseIn (opening str + 1) ops str ≠ .error .overflow := by
    intro overflow
    have delivered := parseIn_delivers ops (opening str + 1) str
    rw [overflow] at delivered
    rcases delivered with ⟨code, offset, coded, -⟩ | ⟨-, deep⟩
    · cases coded
    · exact absurd deep (Nat.not_succ_le_self _)
  exact (steady'.resolve_left kept).trans (steady.resolve_left kept).symm

/-- A value that is spelled with nothing around it is a document. -/
theorem Spells.says {t : Bytes} {v : Value D} (spells : Spells double (.value v) t) :
    Says double t v := by
  refine ⟨[], [], t, [], [], ?_, List.nil_sublist _, blanks_nil, spells, blanks_nil, .inl rfl⟩
  rw [List.append_nil, List.append_nil, List.nil_append, List.nil_append]

theorem Spells.parse {t : Bytes} {v : Value D} (spells : Spells (readDouble ops) (.value v) t) :
    Document.parse ops t = .ok v :=
  spells.says.parse

/-! ### Names -/

/-- Names are strings. -/
def Phrase.Named : Phrase D → Prop
  | .members ms | .value (.object ms) => ∀ name, ∃ v?, findName name ms = .ok v?
  | _ => True

theorem findName_cons {name key : Bytes} {v : Value D} {ms : List (Value D × Value D)}
    (rest : ∃ v?, findName name ms = .ok v?) :
    ∃ v?, findName name ((.string key, v) :: ms) = .ok v? := by
  rw [findName]
  split
  · exact ⟨_, rfl⟩
  · exact rest

theorem Spells.named {p : Phrase D} {t : Bytes} (h : Spells double p t) : p.Named := by
  induction h with
  | emptyObject _ => exact fun _ => ⟨none, rfl⟩
  | object _ _ ih => exact ih
  | member _ _ _ _ _ _ => exact fun _ => findName_cons ⟨none, rfl⟩
  | moreMembers _ _ _ _ _ _ _ _ ih => exact fun name => findName_cons (ih name)
  | _ => trivial

/-- A search in the document of a text fails no assertion. -/
theorem Says.findName {str : Bytes} {ms : List (Value D × Value D)}
    (told : Says double str (.object ms)) (name : Bytes) :
    ∃ v?, Rapidjson.findName name ms = .ok v? := by
  obtain ⟨mark, b, t, b', rest, -, -, -, spells, -, -⟩ := told
  exact spells.named name

/-! ### Integers -/

/-- What a text is that is nothing but a number. -/
theorem parse_number_iff {t : NumberToken} {n : Number D} :
    Document.parse ops t.bytes = .ok (.number n) ↔ Tells (readDouble ops) t n := by
  constructor
  · intro parsed
    obtain ⟨mark, b, t₁, b', rest, text, isMark, blanks, spells, blanks', isEnd⟩ :=
      parse_eq_ok_iff.mp parsed
    obtain ⟨c, s, first, starts⟩ := t.startsValue
    obtain ⟨stops, -, -, small⟩ := startsValue_iff.mp starts
    have ascii : peek t.bytes < 0x80 := by
      rw [first]
      exact small
    -- nothing is skipped in front, neither of a mark nor of blanks
    have unmarked : skipByteOrderMark t.bytes = t.bytes :=
      skipByteOrderMark_append (List.nil_sublist _) ascii
    have text : t.bytes = b ++ (t₁ ++ (b' ++ rest)) := by
      rw [← skipByteOrderMark_append isMark (spells.ascii blanks), ← text, unmarked]
    cases b with
    | cons c' b =>
      obtain ⟨rfl, -⟩ := List.cons.inj (first.symm.trans text)
      rw [isWhitespace_iff.mpr (blanks c List.mem_cons_self)] at stops
      cases stops
    | nil =>
      cases spells with
      | @number t' _ tells =>
        have ended : AfterValue (b' ++ rest) :=
          .blanks blanks' (.inr (.inr (.inr (.inr (isEnd_iff.mp isEnd)))))
        have read := @NumberToken.parseNumber_token D ops t' (b' ++ rest) t.bytes.length
          (ended.follows t')
        rw [t'.number_offset _ (t'.number_iff.mpr tells), ← List.nil_append (t'.bytes ++ _),
          ← text, t.parseNumber_alone] at read
        cases token : t.number ops 0 with
        | error stop =>
          rw [token] at read
          cases read
        | ok n' =>
          rw [token] at read
          have same : (n', []) = (n, b' ++ rest) := Except.ok.inj read
          rw [← (Prod.mk.inj same).1]
          exact t.number_iff.mp token
  · intro tells
    exact (Spells.number tells).parse

/-- **Integers are exact.** A text that is an integer is read as that integer, whatever its sign
and however many digits it has, as long as an `int64_t` or a `uint64_t` holds it; past that no text
is read as an integer at all. -/
theorem integers_are_exact (ops : DoubleOps D) (t : NumberToken)
    (whole : t.frac = none ∧ t.exp = none) :
    (-9223372036854775808 ≤ t.toInt ∧ t.toInt ≤ 18446744073709551615 →
      ∃ n, Document.parse ops t.bytes = .ok (.number n) ∧ n.toInt? = some t.toInt) ∧
      (¬ (-9223372036854775808 ≤ t.toInt ∧ t.toInt ≤ 18446744073709551615) →
        ∀ n, Document.parse ops t.bytes = .ok (.number n) → n.toInt? = none) := by
  have range : (-9223372036854775808 ≤ t.toInt ∧ t.toInt ≤ 18446744073709551615) ↔
      integerNumber (D := D) t.minus t.int.value ≠ none := by
    rw [ne_eq, integerNumber_none, NumberToken.toInt]
    cases t.minus with
    | true =>
      simp only [if_true]
      omega
    | false =>
      simp only [Bool.false_eq_true, if_false]
      omega
  rw [range]
  constructor
  · intro some
    obtain ⟨n, fits⟩ := Option.ne_none_iff_exists'.mp some
    exact ⟨n, parse_number_iff.mpr (.integer whole fits), integerNumber_toInt fits⟩
  · intro none n parsed
    cases parse_number_iff.mp parsed with
    | integer _ fits => exact absurd (fits ▸ Option.some_ne_none _) none
    | double _ _ => rfl

/-- The least `int64_t`. -/
def NumberToken.least : NumberToken where
  minus := true
  int :=
    { bytes := [ch '9', ch '2', ch '2', ch '3', ch '3', ch '7', ch '2', ch '0', ch '3', ch '6',
        ch '8', ch '5', ch '4', ch '7', ch '7', ch '5', ch '8', ch '0', ch '8']
      nonempty := List.cons_ne_nil _ _
      digits := fun c mem => isDigit_iff.mp (List.all_eq_true.mp
        (rfl : List.all [ch '9', ch '2', ch '2', ch '3', ch '3', ch '7', ch '2', ch '0', ch '3',
          ch '6', ch '8', ch '5', ch '4', ch '7', ch '7', ch '5', ch '8', ch '0', ch '8'] isDigit
            = true) c mem) }
  leading := fun zero => absurd zero (by decide)
  frac := none
  exp := none

theorem integers_are_exact_least :
    ∃ n, Document.parse .ieee NumberToken.least.bytes = .ok (.number n) ∧
      n.toInt? = some (-9223372036854775808) :=
  (integers_are_exact .ieee .least ⟨rfl, rfl⟩).1 (by decide)

end PeerNode.Rapidjson
