import PeerNode.Rapidjson.Grammar
import PeerNode.Rapidjson.Writer

/-!
# What is written is read

Whatever the writer writes, the reader reads back as it was meant (`written_is_read`): every string
to its last byte, every member in its place, and every integer that an `int64_t` or a `uint64_t`
holds as itself, in the first of the reader's types that does.

Texts are characters on the one side and bytes on the other. A document is its UTF-8, or whatever
else an `Encoding` makes of it that leaves ASCII alone: the writer escapes nothing beyond ASCII, and
the reader takes any byte that has its high bit set for what it is.

Numbers with an exponent are left out: what a `double` makes of them is not the reader's alone.
-/

namespace PeerNode.Rapidjson

variable {D : Type}

/-! ## Texts as bytes -/

/-- A character of ASCII. -/
def isAscii (c : Char) : Bool := c.toNat < 128

theorem toNat_ch {c : Char} (ascii : isAscii c = true) : (ch c).toNat = c.toNat := by
  have small : c.toNat < 128 := of_decide_eq_true ascii
  show c.val.toUInt8.toNat = c.toNat
  rw [UInt32.toNat_toUInt8]
  exact Nat.mod_eq_of_lt (Nat.lt_trans small (by decide))

theorem ch_inj {c c' : Char} (ascii : isAscii c = true) (ascii' : isAscii c' = true)
    (same : ch c = ch c') : c = c' := by
  apply Char.toNat_inj.mp
  rw [← toNat_ch ascii, ← toNat_ch ascii', same]

/-- How a character is put as bytes: one of ASCII as it is, any other in bytes that have their high
bit set. -/
structure Encoding where
  encode : Char → Bytes
  ascii : ∀ {c}, isAscii c = true → encode c = [ch c]
  nonempty : ∀ c, encode c ≠ []
  wide : ∀ {c}, isAscii c = false → ∀ b ∈ encode c, 0x80 ≤ b

namespace Encoding

variable (enc : Encoding)

/-- A text as bytes. -/
def text (cs : List Char) : Bytes := cs.flatMap enc.encode

theorem text_append (cs cs' : List Char) : enc.text (cs ++ cs') = enc.text cs ++ enc.text cs' :=
  List.flatMap_append

theorem text_cons {c : Char} (ascii : isAscii c = true) (cs : List Char) :
    enc.text (c :: cs) = ch c :: enc.text cs := by
  rw [text, List.flatMap_cons, enc.ascii ascii]
  rfl

/-- ASCII is put as it is. -/
theorem text_ascii {cs : List Char} (ascii : cs.all isAscii = true) :
    enc.text cs = cs.map ch := by
  induction cs with
  | nil => rfl
  | cons c cs ih =>
    rw [List.all_cons, Bool.and_eq_true] at ascii
    rw [enc.text_cons ascii.1, List.map_cons, ih ascii.2]

/-- No other text is the bytes of a text in ASCII. -/
theorem text_inj {name : List Char} (ascii : name.all isAscii = true) (cs : List Char) :
    enc.text cs = enc.text name ↔ cs = name := by
  refine ⟨fun same => ?_, fun same => same ▸ rfl⟩
  induction name generalizing cs with
  | nil =>
    cases cs with
    | nil => rfl
    | cons c cs => exact absurd (List.append_eq_nil_iff.mp same).1 (enc.nonempty c)
  | cons k name ih =>
    rw [List.all_cons, Bool.and_eq_true] at ascii
    rw [enc.text_cons ascii.1] at same
    cases cs with
    | nil => cases same
    | cons c cs =>
      cases narrow : isAscii c with
      | true =>
        rw [enc.text_cons narrow] at same
        obtain ⟨first, rest⟩ := List.cons.inj same
        rw [ch_inj narrow ascii.1 first, ih ascii.2 cs rest]
      | false =>
        obtain ⟨b, bs, encoded⟩ := List.exists_cons_of_ne_nil (enc.nonempty c)
        have high : 0x80 ≤ b := enc.wide narrow b (encoded ▸ List.mem_cons_self)
        rw [text, List.flatMap_cons, encoded] at same
        rw [(List.cons.inj same).1, UInt8.le_iff_toNat_le, toNat_ch ascii.1] at high
        have small : k.toNat < 128 := of_decide_eq_true ascii.1
        exact absurd small (Nat.not_lt.mpr high)

end Encoding

/-- A character of ASCII is one byte. -/
theorem utf8EncodeChar_ascii {c : Char} (ascii : isAscii c = true) :
    String.utf8EncodeChar c = [ch c] := by
  have low : c.val.toNat ≤ 0x7f := Nat.le_of_lt_succ (of_decide_eq_true ascii)
  have same : UInt8.ofNat c.val.toNat = ch c := UInt8.ofNat_uInt32ToNat _
  unfold String.utf8EncodeChar
  rw [if_pos low, same]

/-- Beyond ASCII every byte of a character has its high bit set. -/
theorem le_of_mem_utf8EncodeChar {c : Char} (wide : 128 ≤ c.toNat) {b : UInt8}
    (mem : b ∈ String.utf8EncodeChar c) : 0x80 ≤ b := by
  have high : ∀ {n}, 0x80 ≤ n → n < 2 ^ 8 → 0x80 ≤ UInt8.ofNat n := by
    intro n low small
    rw [UInt8.le_iff_toNat_le, UInt8.toNat_ofNat_of_lt' small]
    exact low
  unfold String.utf8EncodeChar at mem
  rw [show c.val.toNat = c.toNat from rfl, if_neg (by omega)] at mem
  generalize c.toNat = v at mem
  split at mem
  · simp only [List.mem_cons, List.not_mem_nil, or_false] at mem
    rcases mem with rfl | rfl <;> apply high <;> omega
  · split at mem
    · simp only [List.mem_cons, List.not_mem_nil, or_false] at mem
      rcases mem with rfl | rfl | rfl <;> apply high <;> omega
    · simp only [List.mem_cons, List.not_mem_nil, or_false] at mem
      rcases mem with rfl | rfl | rfl | rfl <;> apply high <;> omega

theorem utf8EncodeChar_ne_nil (c : Char) : String.utf8EncodeChar c ≠ [] := by
  unfold String.utf8EncodeChar
  dsimp only
  split
  · exact List.cons_ne_nil _ _
  · split
    · exact List.cons_ne_nil _ _
    · split <;> exact List.cons_ne_nil _ _

theorem le_of_isAscii {c : Char} (wide : isAscii c = false) : 128 ≤ c.toNat :=
  Nat.le_of_not_lt (of_decide_eq_false wide)

/-- UTF-8. -/
def utf8 : Encoding where
  encode := String.utf8EncodeChar
  ascii := utf8EncodeChar_ascii
  nonempty := utf8EncodeChar_ne_nil
  wide wide _ mem := le_of_mem_utf8EncodeChar (le_of_isAscii wide) mem

/-- Bytes that were taken for characters are those bytes. Nothing is left of the other characters
that they could be confused with: they are put in UTF-8. -/
def octets : Encoding where
  encode c := if c.toNat < 256 then [ch c] else String.utf8EncodeChar c
  ascii ascii := if_pos (Nat.lt_trans (of_decide_eq_true ascii) (by decide))
  nonempty c := by
    split
    · exact List.cons_ne_nil _ _
    · exact utf8EncodeChar_ne_nil c
  wide {c} wide b mem := by
    have low := le_of_isAscii wide
    split at mem
    · next small =>
      rw [List.mem_singleton.mp mem, UInt8.le_iff_toNat_le]
      show 128 ≤ c.val.toUInt8.toNat
      rw [UInt32.toNat_toUInt8]
      show 128 ≤ c.toNat % 256
      rwa [Nat.mod_eq_of_lt small]
    · exact le_of_mem_utf8EncodeChar low mem

variable (enc : Encoding)

/-! ## Integers -/

theorem isDigit_ch {c : Char} (digit : c.isDigit = true) :
    isAscii c = true ∧ IsDigit (ch c) := by
  have range : 48 ≤ c.toNat ∧ c.toNat ≤ 57 := by
    unfold Char.isDigit at digit
    rw [Bool.and_eq_true, decide_eq_true_eq, decide_eq_true_eq] at digit
    exact digit
  have ascii : isAscii c = true := decide_eq_true (by omega)
  refine ⟨ascii, ?_⟩
  unfold IsDigit
  rw [UInt8.le_iff_toNat_le, UInt8.le_iff_toNat_le, toNat_ch ascii]
  exact range

/-- Digits as bytes. -/
theorem text_digits {ds : List Char} (digits : ∀ c ∈ ds, c.isDigit = true) :
    enc.text ds = ds.map ch :=
  enc.text_ascii (List.all_eq_true.mpr fun c mem => (isDigit_ch (digits c mem)).1)

theorem decimal_digits {ds : List Char} (digits : ∀ c ∈ ds, c.isDigit = true) (value : Nat) :
    decimal value (ds.map ch) = Nat.ofDigitChars 10 ds value := by
  induction ds generalizing value with
  | nil => rw [Nat.ofDigitChars_nil]; rfl
  | cons c ds ih =>
    have small := (isDigit_ch (digits c List.mem_cons_self)).1
    have next : value * 10 + ((ch c).toNat - 0x30) = 10 * value + (c.toNat - '0'.toNat) := by
      rw [toNat_ch small, Nat.mul_comm]
      rfl
    rw [Nat.ofDigitChars_cons, ← next]
    exact ih (fun c mem => digits c (List.mem_cons_of_mem _ mem)) _

/-- The decimal digits of a number. -/
def digitsOf (n : Nat) : Digits where
  bytes := (Nat.toDigits 10 n).map ch
  nonempty := mt List.map_eq_nil_iff.mp Nat.toDigits_ne_nil
  digits := by
    rintro _ mem
    obtain ⟨c, written, rfl⟩ := List.mem_map.mp mem
    exact (isDigit_ch (Json.isDigit_of_mem_toDigits written)).2

theorem bytes_digitsOf (n : Nat) : (digitsOf n).bytes = (Nat.toDigits 10 n).map ch := rfl

theorem value_digitsOf (n : Nat) : (digitsOf n).value = n := by
  rw [Digits.value, digitsOf, decimal_digits fun c mem => Json.isDigit_of_mem_toDigits mem,
    Nat.ofDigitChars_ten_toDigits]

/-- An integer as it is written. -/
def integerToken (i : Int) : NumberToken where
  minus := decide (i < 0)
  int := digitsOf i.natAbs
  leading := by
    intro zero
    have first : (Nat.toDigits 10 i.natAbs).head? = some '0' := by
      cases ds : Nat.toDigits 10 i.natAbs with
      | nil => exact absurd ds Nat.toDigits_ne_nil
      | cons c cs =>
        have digit : c.isDigit = true :=
          Json.isDigit_of_mem_toDigits (ds ▸ List.mem_cons_self)
        rw [bytes_digitsOf, ds] at zero
        rw [ch_inj (isDigit_ch digit).1 rfl (Option.some.inj zero)]
        rfl
    rw [bytes_digitsOf, Json.toDigits_head_zero first]
    rfl
  frac := none
  exp := none

theorem bytes_integerToken (i : Int) : (integerToken i).bytes = enc.text (Json.renderInt i) := by
  have digits := text_digits enc fun c (mem : c ∈ Nat.toDigits 10 i.natAbs) =>
    Json.isDigit_of_mem_toDigits mem
  unfold NumberToken.bytes Json.renderInt integerToken
  dsimp only [NumberToken.fracBytes, NumberToken.expBytes]
  rw [List.append_nil, List.append_nil]
  by_cases negative : i < 0
  · rw [if_pos (decide_eq_true negative), if_pos negative, enc.text_cons rfl, digits]
    rfl
  · rw [if_neg (by simpa using negative), if_neg negative, digits]
    rfl

variable {double : NumberToken → Option D}

/-- **An integer is spelled as itself**, where one of the types holds it. -/
theorem spells_integer {i : Int} {n : Number D}
    (fits : integerNumber (decide (i < 0)) i.natAbs = some n) :
    Spells double (.value (.number n)) (enc.text (Json.renderInt i)) := by
  rw [← bytes_integerToken]
  apply Spells.number
  apply Tells.integer ⟨rfl, rfl⟩
  rwa [show (integerToken i).int.value = i.natAbs from value_digitsOf _]

/-! ## Strings -/

/-- Bytes that stand for themselves. -/
theorem Chars.plains {bs str cs : Bytes}
    (plain : ∀ b ∈ bs, 0x20 ≤ b ∧ b ≠ ch '"' ∧ b ≠ ch '\\') (rest : Chars str cs) :
    Chars (bs ++ str) (bs ++ cs) := by
  induction bs with
  | nil => exact rest
  | cons b bs ih =>
    obtain ⟨printable, quotation, backslash⟩ := plain b List.mem_cons_self
    apply Chars.plain printable quotation backslash
    exact ih fun b mem => plain b (List.mem_cons_of_mem _ mem)

theorem hexDigit_spells {k : Nat} (small : k < 16) : HexDigit k (ch (Json.hexDigit k)) := by
  have values : ∀ k < 16, hexValue (ch (Json.hexDigit k)) = some k := by decide
  exact hexValue_iff.mp (values k small)

theorem isAscii_hexDigit : ∀ k < 16, isAscii (Json.hexDigit k) = true := by decide

/-- The escape of a control by its code. -/
theorem escape_unicode {c : Char} (control : c.toNat < 32) :
    Escape [ch c] (ch 'u' :: [ch '0', ch '0', ch (Json.hexDigit (c.toNat / 16)),
      ch (Json.hexDigit (c.toNat % 16))]) := by
  have zero : HexDigit 0 (ch '0') := hexDigit_spells (by decide)
  have unit := Unit16.digits zero zero (hexDigit_spells (show c.toNat / 16 < 16 by omega))
    (hexDigit_spells (show c.toNat % 16 < 16 by omega))
  have code : 0x1000 * 0 + 0x100 * 0 + 0x10 * (c.toNat / 16) + c.toNat % 16 = c.toNat := by omega
  have byte : utf8Bytes c.toNat = [ch c] := by
    unfold utf8Bytes
    rw [if_pos (by omega)]
    exact congrArg (fun b => [b]) (UInt8.ofNat_uInt32ToNat c.val)
  rw [code] at unit
  rw [← byte]
  exact .unicode unit fun high => by
    have := high.1
    omega

/-- A character as it is written in a string. -/
theorem chars_escape (c : Char) {str cs : Bytes} (rest : Chars str cs) :
    Chars (enc.encode c ++ str) (enc.text (Json.escape c) ++ cs) := by
  have letter : ∀ {n : Nat} (_ : c.toNat = n) {e : Char} (_ : Letter (ch (Char.ofNat n)) (ch e))
      (_ : isAscii (Char.ofNat n) = true) (_ : isAscii e = true),
      Chars (enc.encode c ++ str) (enc.text ['\\', e] ++ cs) := by
    rintro n code e known narrow ascii
    rw [← Char.ofNat_toNat c, code, enc.ascii narrow, enc.text_cons rfl, enc.text_cons ascii]
    exact .escape (.letter known) rest
  unfold Json.escape
  split
  · next h => exact letter (congrArg Char.toNat h) .quotation rfl rfl
  split
  · next h => exact letter (congrArg Char.toNat h) .backslash rfl rfl
  split
  · next control =>
    split
    · next h => exact letter h .backspace rfl rfl
    split
    · next h => exact letter h .tab rfl rfl
    split
    · next h => exact letter h .lineFeed rfl rfl
    split
    · next h => exact letter h .formFeed rfl rfl
    split
    · next h => exact letter h .carriageReturn rfl rfl
    · have text : enc.text ['\\', 'u', '0', '0', Json.hexDigit (c.toNat / 16),
          Json.hexDigit (c.toNat % 16)]
          = ch '\\' :: (ch 'u' :: [ch '0', ch '0', ch (Json.hexDigit (c.toNat / 16)),
            ch (Json.hexDigit (c.toNat % 16))]) := by
        rw [enc.text_cons rfl, enc.text_cons rfl, enc.text_cons rfl, enc.text_cons rfl,
          enc.text_cons (isAscii_hexDigit _ (by omega)),
          enc.text_cons (isAscii_hexDigit _ (by omega))]
        rfl
      rw [text, enc.ascii (decide_eq_true (by omega))]
      exact .escape (escape_unicode control) rest
  · next quotation backslash control =>
    have same : enc.text [c] = enc.encode c := List.append_nil _
    rw [same]
    apply Chars.plains _ rest
    intro b mem
    cases narrow : isAscii c with
    | false =>
      have high := enc.wide narrow b mem
      refine ⟨UInt8.le_trans (by decide) high, ?_, ?_⟩
      · rintro rfl
        exact absurd high (by decide)
      · rintro rfl
        exact absurd high (by decide)
    | true =>
      rw [enc.ascii narrow, List.mem_singleton] at mem
      subst mem
      refine ⟨?_, fun same => quotation (ch_inj narrow rfl same),
        fun same => backslash (ch_inj narrow rfl same)⟩
      rw [UInt8.le_iff_toNat_le, toNat_ch narrow]
      exact Nat.le_of_not_lt control

/-- The characters of a string as they are written. -/
theorem chars_flatMap_escape (s : List Char) :
    Chars (enc.text s) (enc.text (s.flatMap Json.escape)) := by
  induction s with
  | nil => exact .nil
  | cons c s ih =>
    rw [List.flatMap_cons, enc.text_append]
    exact chars_escape enc c ih

theorem text_quote (s : String) :
    enc.text (Json.quote s) = quoted (enc.text (s.toList.flatMap Json.escape)) := by
  rw [Json.quote, enc.text_cons rfl, enc.text_append, enc.text_cons rfl]
  rfl

/-! ## Values -/

mutual

/-- A JSON value as the reader's, if its numbers are integers that one of the types holds. -/
def ofJson : Json → Option (Value D)
  | .null => some .null
  | .bool b => some (.bool b)
  | .num m e => if e = 0 then (integerNumber (decide (m < 0)) m.natAbs).map .number else none
  | .str s => some (.string (enc.text s.toList))
  | .arr items => (ofItems items).map .array
  | .obj members => (ofMembers members).map .object

def ofItems : List Json → Option (List (Value D))
  | [] => some []
  | v :: vs => do
    let v ← ofJson v
    let vs ← ofItems vs
    some (v :: vs)

def ofMembers : List (String × Json) → Option (List (Value D × Value D))
  | [] => some []
  | (k, v) :: ms => do
    let v ← ofJson v
    let ms ← ofMembers ms
    some ((.string (enc.text k.toList), v) :: ms)

end

mutual

/-- **The spelling of a value spells it.** -/
theorem spells_render : ∀ (v : Json) {d : Value D}, ofJson enc v = some d →
    Spells double (.value d) (enc.text v.render)
  | .null, _, h => by
    cases h
    rw [Json.render, enc.text_ascii rfl]
    exact .null
  | .bool true, _, h => by
    cases h
    rw [Json.render, enc.text_ascii rfl]
    exact .true
  | .bool false, _, h => by
    cases h
    rw [Json.render, enc.text_ascii rfl]
    exact .false
  | .num m e, _, h => by
    rw [ofJson] at h
    split at h
    · next integer =>
      obtain ⟨n, fits, rfl⟩ := Option.map_eq_some_iff.mp h
      rw [Json.render, if_pos integer]
      exact spells_integer enc fits
    · cases h
  | .str s, _, h => by
    cases h
    rw [Json.render, text_quote enc]
    exact .string (chars_flatMap_escape enc s.toList)
  | .arr [], _, h => by
    cases h
    rw [Json.render, enc.text_ascii rfl]
    exact .emptyArray blanks_nil
  | .arr (v :: vs), _, h => by
    rw [ofJson] at h
    obtain ⟨ds, items, rfl⟩ := Option.map_eq_some_iff.mp h
    rw [Json.render, enc.text_cons rfl, enc.text_append, enc.text_cons rfl]
    exact .array blanks_nil (spells_renderItems (v :: vs) (List.cons_ne_nil v vs) items)
  | .obj [], _, h => by
    cases h
    rw [Json.render, enc.text_ascii rfl]
    exact .emptyObject blanks_nil
  | .obj (m :: ms), _, h => by
    rw [ofJson] at h
    obtain ⟨ds, members, rfl⟩ := Option.map_eq_some_iff.mp h
    rw [Json.render, enc.text_cons rfl, enc.text_append, enc.text_cons rfl]
    exact .object blanks_nil (spells_renderMembers (m :: ms) (List.cons_ne_nil m ms) members)

theorem spells_renderItems : ∀ (items : List Json) {ds : List (Value D)},
    items ≠ [] → ofItems enc items = some ds →
      Spells double (.elements ds) (enc.text (Json.renderItems items))
  | [], _, nonempty, _ => absurd rfl nonempty
  | [v], _, _, h => by
    rw [ofItems, ofItems] at h
    obtain ⟨d, value, h⟩ := Option.bind_eq_some_iff.mp h
    cases h
    rw [Json.renderItems, ← List.append_nil (enc.text v.render)]
    exact .element (spells_render v value) blanks_nil
  | v :: w :: vs, _, _, h => by
    rw [ofItems] at h
    obtain ⟨d, value, h⟩ := Option.bind_eq_some_iff.mp h
    obtain ⟨ds, items, h⟩ := Option.bind_eq_some_iff.mp h
    cases h
    rw [Json.renderItems, enc.text_append, enc.text_cons rfl]
    exact .moreElements (spells_render v value) blanks_nil blanks_nil
      (spells_renderItems (w :: vs) (List.cons_ne_nil w vs) items)

theorem spells_renderMembers : ∀ (members : List (String × Json)) {ds : List (Value D × Value D)},
    members ≠ [] → ofMembers enc members = some ds →
      Spells double (.members ds) (enc.text (Json.renderMembers members))
  | [], _, nonempty, _ => absurd rfl nonempty
  | [(k, v)], _, _, h => by
    rw [ofMembers, ofMembers] at h
    obtain ⟨d, value, h⟩ := Option.bind_eq_some_iff.mp h
    cases h
    rw [Json.renderMembers, enc.text_append, enc.text_cons rfl, text_quote enc,
      ← List.append_nil (enc.text v.render)]
    exact .member (chars_flatMap_escape enc k.toList) blanks_nil blanks_nil (spells_render v value)
      blanks_nil
  | (k, v) :: m :: ms, _, _, h => by
    rw [ofMembers] at h
    obtain ⟨d, value, h⟩ := Option.bind_eq_some_iff.mp h
    obtain ⟨ds, members, h⟩ := Option.bind_eq_some_iff.mp h
    cases h
    rw [Json.renderMembers, enc.text_append, enc.text_cons rfl, enc.text_append,
      enc.text_cons rfl, text_quote enc]
    exact .moreMembers (chars_flatMap_escape enc k.toList) blanks_nil blanks_nil
      (spells_render v value) blanks_nil blanks_nil
      (spells_renderMembers (m :: ms) (List.cons_ne_nil m ms) members)

end

/-- A member is found under its name, if the name is in ASCII. -/
theorem findName_ofMembers {members : List (String × Json)} {ds : List (Value D × Value D)}
    (h : ofMembers enc members = some ds) {name : String}
    (ascii : name.toList.all isAscii = true) :
    findName (enc.text name.toList) ds = .ok ((members.lookup name).bind (ofJson enc)) := by
  induction members generalizing ds with
  | nil =>
    cases h
    rfl
  | cons m ms ih =>
    obtain ⟨k, v⟩ := m
    rw [ofMembers] at h
    obtain ⟨d, value, h⟩ := Option.bind_eq_some_iff.mp h
    obtain ⟨ds, rest, h⟩ := Option.bind_eq_some_iff.mp h
    cases h
    have found : enc.text k.toList = enc.text name.toList ↔ k = name :=
      (enc.text_inj ascii _).trans String.toList_inj
    rw [findName, List.lookup_cons]
    by_cases same : k = name
    · subst same
      rw [if_pos rfl, beq_self_eq_true]
      exact congrArg Except.ok value.symm
    · rw [if_neg (mt found.mp same), beq_eq_false_iff_ne.mpr (Ne.symm same)]
      exact ih rest

theorem findMember_ofJson {v : Json} {d : Value D} (h : ofJson enc v = some d)
    (object : ∃ members, v = .obj members) {name : String}
    (ascii : name.toList.all isAscii = true) :
    d.findMember (enc.text name.toList) = .ok ((v.member? name).bind (ofJson enc)) := by
  obtain ⟨members, rfl⟩ := object
  rw [ofJson] at h
  obtain ⟨ds, members, rfl⟩ := Option.map_eq_some_iff.mp h
  exact findName_ofMembers enc members ascii

/-! ### Values that have a spelling -/

/-- The reader has a value for it. -/
def Fits (D : Type) (v : Json) : Prop := ∃ d : Value D, ofJson enc v = some d

variable {enc}

theorem fits_str (s : String) : Fits enc D (.str s) := ⟨_, rfl⟩

theorem fits_int {i : Int} (low : -9223372036854775808 ≤ i) (high : i ≤ 18446744073709551615) :
    Fits enc D (.int i) := by
  have some : integerNumber (D := D) (decide (i < 0)) i.natAbs ≠ none := by
    rw [ne_eq, integerNumber_none]
    by_cases negative : i < 0
    · rw [if_pos (decide_eq_true negative)]
      omega
    · rw [if_neg (by simpa using negative)]
      omega
  obtain ⟨n, number⟩ := Option.ne_none_iff_exists'.mp some
  refine ⟨.number n, ?_⟩
  rw [ofJson, if_pos rfl, number]
  rfl

theorem fits_obj {members : List (String × Json)} (each : ∀ m ∈ members, Fits enc D m.2) :
    Fits enc D (.obj members) := by
  have all : ∃ ds, ofMembers (D := D) enc members = some ds := by
    induction members with
    | nil => exact ⟨[], rfl⟩
    | cons m ms ih =>
      obtain ⟨d, value⟩ := each m List.mem_cons_self
      obtain ⟨ds, rest⟩ := ih fun m mem => each m (List.mem_cons_of_mem _ mem)
      refine ⟨(.string (enc.text m.1.toList), d) :: ds, ?_⟩
      rw [ofMembers, value, rest]
      rfl
  obtain ⟨ds, members⟩ := all
  refine ⟨.object ds, ?_⟩
  rw [ofJson, members]
  rfl

/-- **What is written is read.** Calls of the writer that are worth a value leave a text that the
reader reads as that value, in UTF-8 and in any other encoding that leaves ASCII alone. -/
theorem written_is_read (ops : DoubleOps D) (enc : Encoding) {calls : Writer → Writer} {v : Json}
    {d : Value D} (emits : Emits calls v) (fits : ofJson enc v = some d) :
    Document.parse ops (enc.text (calls {}).os) = .ok d := by
  rw [emits.text]
  exact (spells_render enc v fits).parse

/-- An array and an object in an object: both limits of an `int64_t`, a control, a quotation mark
and a letter beyond ASCII. -/
def nestedMembers : List Member :=
  [.array (String.ofList ['a'])
      [⟨Writer.null, .null, emits_null⟩,
        .object [.int64 (String.ofList ['l', 'o']) (-9223372036854775808)]],
    .object (String.ofList ['"'])
      [.string (String.ofList ['é']) (String.ofList ['\t', '"', 'é', Char.ofNat 1])],
    .int64 (String.ofList ['h', 'i']) 9223372036854775807]

/-- The calls that write them. -/
def nestedCalls (w : Writer) : Writer :=
  (nestedMembers.foldl Member.write w.startObject).endObject

/-- What they are read as. -/
def nestedValue : Value Float :=
  .object
    [(.string [97], .array
        [.null, .object [(.string [108, 111], .number (.int64 (-9223372036854775808)))]]),
      (.string [34], .object [(.string [0xC3, 0xA9], .string [9, 34, 0xC3, 0xA9, 1])]),
      (.string [104, 105], .number (.uint64 9223372036854775807))]

theorem written_is_read_nested :
    Document.parse .ieee (utf8.text (nestedCalls {}).os) = .ok nestedValue := by
  have emits : Emits nestedCalls (.obj (nestedMembers.map Member.entry)) :=
    emits_object nestedMembers
  have fits : ofJson utf8 (.obj (nestedMembers.map Member.entry)) = some nestedValue := by
    simp only [nestedMembers, List.map_cons, List.map_nil, Member.entry, Member.array,
      Member.object, Member.int64, Member.string, Item.object, ofJson, ofItems, ofMembers,
      String.toList_ofList]
    rfl
  exact written_is_read .ieee utf8 emits fits

end PeerNode.Rapidjson
