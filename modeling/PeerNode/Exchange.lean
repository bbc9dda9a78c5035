import PeerNode.ReadBack

/-!
# Over the wire

A request arrives as bytes. With the reader in the place of the node's parser (`Env.reading`)
nothing is assumed of parsing any more, and whatever holds of every environment holds of this one.
What the node goes by is what the bytes spell, however they spell it (`exchange`). The caller is
told of a body that spells no document, and of no other; such a body is counted as trash and
forgotten (`unreadable_iff`).

A body is any bytes, and a `std::string` of them one character each (`ofBytes`), whether they are
UTF-8 or not. The call stack has room for the body, as in `Document.parse`.

The accessors stay the library's, over the JSON that a document stands for (`toJson`). A `double`
looks like some number; what `get_int64` makes of it, and of an integer that no `int64_t` holds, is
the library's.
-/

namespace PeerNode

open Rapidjson Mealy

variable {TX D : Type}

/-! ## Bytes as text -/

/-- A `std::string` of these bytes. -/
def ofBytes (str : Bytes) : String := String.ofList (str.map Char.ofUInt8)

/-- The bytes of a `std::string`. -/
def bytesOf (text : String) : Bytes := octets.text text.toList

theorem encode_octet (b : UInt8) : octets.encode (Char.ofUInt8 b) = [b] := by
  have small : (Char.ofUInt8 b).toNat < 256 := UInt8.toNat_lt b
  have same : ch (Char.ofUInt8 b) = b := UInt8.toUInt8_toUInt32 b
  show (if (Char.ofUInt8 b).toNat < 256 then [ch (Char.ofUInt8 b)] else _) = _
  rw [if_pos small, same]

@[simp] theorem bytesOf_ofBytes (str : Bytes) : bytesOf (ofBytes str) = str := by
  unfold bytesOf ofBytes
  rw [String.toList_ofList]
  induction str with
  | nil => rfl
  | cons b str ih =>
    rw [List.map_cons, Encoding.text, List.flatMap_cons, encode_octet]
    exact congrArg (b :: ·) ih

theorem ofBytes_eq_iff {str : Bytes} {name : String} (ascii : name.toList.all isAscii = true) :
    ofBytes str = name ↔ str = bytesOf name := by
  have texts := octets.text_inj ascii (ofBytes str).toList
  rw [show octets.text (ofBytes str).toList = str from bytesOf_ofBytes str] at texts
  exact (texts.trans String.toList_inj).symm

theorem ofBytes_eq_empty {str : Bytes} : ofBytes str = "" ↔ str = [] := by
  refine (ofBytes_eq_iff (by rw [String.toList_empty]; rfl)).trans ?_
  rw [bytesOf, String.toList_empty]
  rfl

/-! ## Documents as the accessors see them -/

mutual

/-- A document as JSON, for what a `double` looks like: its digits and its power of ten. -/
def toJson (double : D → Int × Int) : Value D → Json
  | .null => .null
  | .bool b => .bool b
  | .number (.double d) => .num (double d).1 (double d).2
  | .number n => .int (n.toInt?.getD 0)
  | .string str => .str (ofBytes str)
  | .array vs => .arr (toItems double vs)
  | .object ms => .obj (toMembers double ms)

def toItems (double : D → Int × Int) : List (Value D) → List Json
  | [] => []
  | v :: vs => toJson double v :: toItems double vs

def toMembers (double : D → Int × Int) : List (Value D × Value D) → List (String × Json)
  | [] => []
  | (.string name, v) :: ms => (ofBytes name, toJson double v) :: toMembers double ms
  | (_, v) :: ms => ("", toJson double v) :: toMembers double ms

end

theorem toJson_integer (double : D → Int × Int) {n : Number D} {i : Int}
    (integer : n.toInt? = some i) : toJson double (.number n) = .int i := by
  cases n with
  | double d => cases integer
  | _ =>
    rw [toJson, integer]
    · rfl
    · exact nofun

/-- A number looks like one. -/
theorem toJson_number (double : D → Int × Int) (n : Number D) :
    ∃ m e, toJson double (.number n) = .num m e := by
  cases n with
  | double d => exact ⟨_, _, rfl⟩
  | _ => exact ⟨_, 0, rfl⟩

/-- The accessors find what the document holds under a name. -/
theorem lookup_toMembers (double : D → Int × Int) {ms : List (Value D × Value D)} {name : String}
    {v? : Option (Value D)} (ascii : name.toList.all isAscii = true)
    (found : findName (bytesOf name) ms = .ok v?) :
    (toMembers double ms).lookup name = v?.map (toJson double) := by
  induction ms with
  | nil =>
    cases found
    rfl
  | cons m ms ih =>
    obtain ⟨key, v⟩ := m
    cases key with
    | string str =>
      rw [findName] at found
      rw [toMembers, List.lookup_cons]
      by_cases same : str = bytesOf name
      · rw [if_pos same] at found
        cases found
        rw [(ofBytes_eq_iff ascii).mpr same, beq_self_eq_true]
        rfl
      · rw [if_neg same] at found
        rw [beq_eq_false_iff_ne.mpr (Ne.symm (mt (ofBytes_eq_iff ascii).mp same))]
        exact ih found
    | _ => cases found

/-! ## What a body reads as -/

/-- What the reader makes of a text. -/
@[irreducible] def readText (ops : DoubleOps D) (double : D → Int × Int) (text : String) :
    Option Json :=
  match Document.parse ops (bytesOf text) with
  | .ok d => some (toJson double d)
  | .error _ => none

/-- The libraries, with the reader as their parser. -/
def Sniper.reading (ops : DoubleOps D) (double : D → Int × Int) (sniper : Sniper TX) : Sniper TX :=
  { sniper with documentParse := readText ops double }

@[simp] theorem documentParse_reading (ops : DoubleOps D) (double : D → Int × Int)
    (sniper : Sniper TX) : (sniper.reading ops double).documentParse = readText ops double := rfl

/-- The environment, with the reader as its parser. -/
def Env.reading (ops : DoubleOps D) (double : D → Int × Int) (env : Env TX) : Env TX :=
  { env with sniper := env.sniper.reading ops double }

@[simp] theorem sniper_reading (ops : DoubleOps D) (double : D → Int × Int) (env : Env TX) :
    (env.reading ops double).sniper = env.sniper.reading ops double := rfl

@[simp] theorem strict_reading (ops : DoubleOps D) (double : D → Int × Int) (env : Env TX) :
    (env.reading ops double).strict = env.strict := rfl

variable (ops : DoubleOps D) (double : D → Int × Int)

/-- A body that spells a document is read as what the document looks like. -/
theorem readText_says {str : Bytes} {d : Value D} (said : Says (readDouble ops) str d) :
    readText ops double (ofBytes str) = some (toJson double d) := by
  unfold readText
  rw [bytesOf_ofBytes, said.parse]

/-- A body that spells none is not read. -/
theorem readText_unsaid {str : Bytes} (unsaid : ∀ d, ¬ Says (readDouble ops) str d) :
    readText ops double (ofBytes str) = none := by
  unfold readText
  rw [bytesOf_ofBytes]
  cases parsed : Document.parse ops str with
  | ok d => exact absurd (parse_eq_ok_iff.mp parsed) (unsaid d)
  | error stop => rfl

/-- Nothing spells nothing. -/
theorem not_says_nil {double : NumberToken → Option D} (d : Value D) : ¬ Says double [] d := by
  rintro ⟨mark, b, t, b', rest, text, -, -, spells, -, -⟩
  obtain ⟨c, s, rfl, -⟩ := spells.opens
  have shorter := congrArg List.length text
  simp only [List.length_nil, List.length_append, List.length_cons] at shorter
  omega

theorem ofBytes_ne_empty {double : NumberToken → Option D} {str : Bytes} {d : Value D}
    (said : Says double str d) : ofBytes str ≠ "" := by
  intro empty
  rw [ofBytes_eq_empty.mp empty] at said
  exact not_says_nil d said

/-! ## The id of a request -/

/-- What is assumed of the accessors: they read the members that are there, and what `get_int64`
reads is an `int64_t`. -/
structure ReadsIds (sniper : Sniper TX) : Prop extends ReadsMembers sniper where
  int64 : ∀ doc name, -2 ^ 63 ≤ sniper.getInt64 doc name ∧ sniper.getInt64 doc name < 2 ^ 63

/-- The accessors read what they read, whatever parses. -/
theorem ReadsIds.reading {sniper : Sniper TX} (reads : ReadsIds sniper) :
    ReadsIds (sniper.reading ops double) where
  empty := by
    rw [documentParse_reading, ← ofBytes_eq_empty.mpr (rfl : ([] : Bytes) = [])]
    exact readText_unsaid ops double not_says_nil
  isString := reads.isString
  isNum := reads.isNum
  getString := reads.getString
  getInt64 := reads.getInt64
  int64 := reads.int64

/-- What a reply holds under `id`, for what the request holds there. A string is repeated to its
last byte, and an integer that an `int64_t` holds is the same integer; of any other number there is
the one that `get_int64` made of it. For anything else, and for nothing, there is the null of the
strict dialect, or nothing. -/
inductive Echoes (strict : Bool) : Option (Value D) → Option (Value D) → Prop
  | string (str : Bytes) : Echoes strict (some (.string str)) (some (.string str))
  | int64 {n n' : Number D} {i : Int} (asked : n.toInt? = some i) (low : -2 ^ 63 ≤ i)
      (high : i < 2 ^ 63) (told : n'.toInt? = some i) :
      Echoes strict (some (.number n)) (some (.number n'))
  | number {n n' : Number D} {i : Int}
      (beyond : ∀ j, n.toInt? = some j → ¬ (-2 ^ 63 ≤ j ∧ j < 2 ^ 63))
      (told : n'.toInt? = some i) : Echoes strict (some (.number n)) (some (.number n'))
  | other {v? : Option (Value D)} (string : ∀ str, v? ≠ some (.string str))
      (number : ∀ n, v? ≠ some (.number n)) :
      Echoes strict v? (if strict then some .null else none)

/-- An `int64_t` is read back as itself. -/
theorem ofJson_int64 {i : Int} (low : -2 ^ 63 ≤ i) (high : i < 2 ^ 63) :
    ∃ n : Number D, ofJson octets (.int i) = some (.number n) ∧ n.toInt? = some i := by
  obtain ⟨d, read⟩ : Fits octets D (.int i) := fits_int (by omega) (by omega)
  rw [ofJson, if_pos rfl] at read
  obtain ⟨n, fits, -⟩ := Option.map_eq_some_iff.mp read
  refine ⟨n, by rw [ofJson, if_pos rfl, fits]; rfl, (integerNumber_toInt fits).trans ?_⟩
  by_cases negative : i < 0
  · rw [if_pos (decide_eq_true negative)]
    exact congrArg some (by omega)
  · rw [if_neg (by simpa using negative)]
    exact congrArg some (by omega)

/-- **The id comes back**: what the reply to a document holds under `id` is for what the document
holds there. -/
theorem echoes {sniper : Sniper TX} (reads : ReadsIds sniper) (strict : Bool)
    {members : List (String × Json)} {v? : Option (Value D)}
    (found : (Json.obj members).member? "id" = v?.map (toJson double)) :
    Held (JsonRequest.read sniper (.obj members)).id ∧
      Echoes strict v?
        ((replyId strict (JsonRequest.read sniper (.obj members)).id).bind (ofJson octets)) := by
  have neither : (∀ s, (Json.obj members).member? "id" ≠ some (.str s)) →
      (∀ m e, (Json.obj members).member? "id" ≠ some (.num m e)) →
      (∀ str, v? ≠ some (.string str)) → (∀ n, v? ≠ some (.number n)) →
        Held (JsonRequest.read sniper (.obj members)).id ∧
          Echoes strict v?
            ((replyId strict (JsonRequest.read sniper (.obj members)).id).bind
              (ofJson octets)) := by
    intro noStr noNum string number
    rw [read_id_other reads.toReadsMembers noStr noNum]
    refine ⟨trivial, ?_⟩
    have nothing := @Echoes.other D strict v? string number
    cases strict <;> exact nothing
  cases v? with
  | none => exact neither (by simp [found]) (by simp [found]) nofun nofun
  | some v =>
    cases v with
    | string str =>
      have carries : CarriesId (.obj members) (some (.string (ofBytes str))) := found
      rw [read_id reads.toReadsMembers carries]
      refine ⟨trivial, ?_⟩
      show Echoes strict _ (some (.string (bytesOf (ofBytes str))))
      rw [bytesOf_ofBytes]
      exact .string str
    | number n =>
      obtain ⟨m, e, look⟩ := toJson_number double n
      have number := read_id_number reads.toReadsMembers (found.trans (congrArg some look))
      rw [number]
      obtain ⟨low, high⟩ := reads.int64 (.obj members) "id"
      obtain ⟨n', read, told⟩ := @ofJson_int64 D _ low high
      refine ⟨⟨low, high⟩, ?_⟩
      show Echoes strict _ (ofJson octets (.int _))
      rw [read]
      by_cases held : ∃ i, n.toInt? = some i ∧ -2 ^ 63 ≤ i ∧ i < 2 ^ 63
      · obtain ⟨i, asked, low', high'⟩ := held
        have same := reads.getInt64 members "id" i
          (found.trans (congrArg some (toJson_integer double asked))) low' high'
        exact .int64 asked low' high' (told.trans (congrArg some same))
      · exact .number (fun j asked range => held ⟨j, asked, range⟩) told
    | null => exact neither (by simp [found, toJson]) (by simp [found, toJson]) nofun nofun
    | bool b => exact neither (by simp [found, toJson]) (by simp [found, toJson]) nofun nofun
    | array vs => exact neither (by simp [found, toJson]) (by simp [found, toJson]) nofun nofun
    | object ms => exact neither (by simp [found, toJson]) (by simp [found, toJson]) nofun nofun

variable (env : Env TX)

/-- **An exchange over the wire.** A caller asks with any bytes that spell an object, with blanks,
escapes, fractions and bytes beyond UTF-8 as it likes. The node answers with one reply. The bytes of
the reply are read as a document that is faithful to the request and its outcome, and under `id`
there stands in it what has to, for what the request holds there. -/
theorem exchange (reads : ReadsIds env.sniper) {bytes : Bytes}
    {members : List (Value D × Value D)} (said : Says (readDouble ops) bytes (.object members))
    {w : Worker} (room : ¬ tooMany env w) (result : SendResult) :
    ∃ text reply d id? id'?,
      ((worker (env.reading ops double)).step w
            (.call (.request (ofBytes bytes) result))).2.filterMap Action.reply?
        = [{ code := 200, data := some text, headers := [allowOrigin] }] ∧
      Document.parse ops (bytesOf text) = .ok d ∧ ofJson octets reply = some d ∧
      Faithful env.strict (validate (env.reading ops double) (ofBytes bytes)).1.id
        (outcomeKind (validate (env.reading ops double) (ofBytes bytes)).2) reply ∧
      (Value.object members).findMember (bytesOf "id") = .ok id? ∧
      d.findMember (bytesOf "id") = .ok id'? ∧ Echoes env.strict id? id'? := by
  have parsed : (env.reading ops double).sniper.documentParse (ofBytes bytes)
      = some (.obj (toMembers double members)) := by
    rw [sniper_reading, documentParse_reading, readText_says ops double said, toJson]
  obtain ⟨id?, found⟩ := said.findName (bytesOf "id")
  have member : (Json.obj (toMembers double members)).member? "id" = id?.map (toJson double) :=
    lookup_toMembers double rfl found
  obtain ⟨held, echo⟩ := echoes double (reads.reading ops double) env.strict member
  obtain ⟨text, reply, d, only, read, written, faithful, id⟩ :=
    replies_read_back (env.reading ops double) ops octets (ofBytes_ne_empty said) parsed held room
      result
  rw [(validate_parsed (env.reading ops double) (ofBytes_ne_empty said) parsed).1]
  exact ⟨text, reply, d, id?, _, only, read, written, faithful, found, id, echo⟩

theorem plain_readsIds : ReadsIds Sniper.plain where
  toReadsMembers := plain_readsMembers
  int64 doc name := by
    simp only [Sniper.plain]
    split
    · split
      · omega
      · decide
    · decide

/-- An id that is the integer 7, with some blanks; then a name that is no UTF-8, and another id. -/
def oddBody : Bytes :=
  [0x20, ch '{', ch '"', ch 'i', ch 'd', ch '"', 0x20, ch ':', 0x09, ch '7', ch ',', ch '"', 0xFF,
    ch '"', ch ':', ch '[', ch ']', ch ',', ch '"', ch 'i', ch 'd', ch '"', ch ':', ch 't', ch 'r',
    ch 'u', ch 'e', ch '}', 0x0A]

/-- What it spells. -/
def oddMembers : List (Value Float × Value Float) :=
  [(.string [0x69, 0x64], .number (.uint 7)), (.string [0xFF], .array []),
    (.string [0x69, 0x64], .bool true)]

/-- An exchange with a caller who sends odd bytes. -/
theorem exchange_odd :
    ∃ text reply d id? id'?,
      ((worker ((Env.plain {}).reading .ieee fun _ => (0, 0))).step {}
            (.call (.request (ofBytes oddBody) (.accepted 1)))).2.filterMap Action.reply?
        = [{ code := 200, data := some text, headers := [allowOrigin] }] ∧
      Document.parse .ieee (bytesOf text) = .ok d ∧ ofJson octets reply = some d ∧
      Faithful false
        (validate ((Env.plain {}).reading .ieee fun _ => (0, 0)) (ofBytes oddBody)).1.id
        (outcomeKind (validate ((Env.plain {}).reading .ieee fun _ => (0, 0))
          (ofBytes oddBody)).2) reply ∧
      (Value.object oddMembers).findMember (bytesOf "id") = .ok id? ∧
      d.findMember (bytesOf "id") = .ok id'? ∧ Echoes false id? id'? := by
  have said : Says (readDouble .ieee) oddBody (.object oddMembers) := parse_eq_ok_iff.mp rfl
  exact exchange .ieee (fun _ => (0, 0)) (.plain {}) plain_readsIds said (room_of_unlimited rfl _)
    (.accepted 1)

/-! ## Bodies that are no document -/

/-- There is something, and it spells no document. -/
def Unreadable (ops : DoubleOps D) (bytes : Bytes) : Prop :=
  bytes ≠ [] ∧ ∀ d, ¬ Says (readDouble ops) bytes d

/-- The reply to it. -/
def unreadableReply (strict : Bool) : HttpResponse where
  code := 200
  data := some (String.ofList (errorReply strict .jsonParseError none).render)
  headers := [allowOrigin]

/-- The message of an error reply is in it. -/
theorem message_of_errorReply {strict : Bool} {code code' : ErrorCode} {id? id?' : Option RequestId}
    (same : errorReply strict code id? = errorReply strict code' id?') :
    getErrorMessage code = getErrorMessage code' := by
  unfold errorReply at same
  cases strict with
  | true =>
    simp only [if_true, List.cons_append, Json.obj.injEq, List.cons.injEq, Prod.mk.injEq,
      Json.str.injEq] at same
    exact same.2.1.2.2.1.2
  | false =>
    simp only [Bool.false_eq_true, if_false, List.cons_append, Json.obj.injEq, List.cons.injEq,
      Prod.mk.injEq, Json.str.injEq] at same
    exact same.2.1.2

theorem getErrorMessage_ne {code : ErrorCode} (other : code ≠ .jsonParseError) :
    getErrorMessage code ≠ getErrorMessage .jsonParseError := by
  cases code with
  | jsonParseError => exact absurd rfl other
  | _ => simp [getErrorMessage]

/-- No other outcome is answered so. -/
theorem outcomeText_ne (json : JsonRequest) (counters : LocalCounters)
    {outcome : Except ErrorCode TX}
    (stopped : ∀ ec, outcome = .error ec → ec.AfterParse ∨ ec = .emptyPostData) :
    outcomeText env json counters outcome
      ≠ String.ofList (errorReply env.strict .jsonParseError none).render := by
  intro same
  have error := (errorReply_faithful env.strict .jsonParseError none).kind
  cases outcome with
  | ok tx =>
    have reply := ofList_render_inj ((makeOkJson_eq _ _ _ _).symm.trans same)
    rw [← reply, (okReply_faithful _ _ _).kind] at error
    cases error
  | error ec =>
    have message : ∀ {code id?}, code ≠ .jsonParseError → String.ofList
        (errorReply env.strict code id?).render
          ≠ String.ofList (errorReply env.strict .jsonParseError none).render :=
      fun other text => getErrorMessage_ne other (message_of_errorReply (ofList_render_inj text))
    have read := stopped ec rfl
    cases ec with
    | getInfo =>
      have reply := ofList_render_inj ((makeGetinfoJson_eq _ _ _).symm.trans same)
      rw [← reply, (getinfoReply_faithful _ _ _).kind] at error
      cases error
    | ok => simp [ErrorCode.AfterParse] at read
    | httpMethodNotSupported => simp [ErrorCode.AfterParse] at read
    | jsonParseError => simp [ErrorCode.AfterParse] at read
    | _ => exact message (by decide) ((makeErrorJson_eq _ _ _).symm.trans same)

/-- What an unreadable body comes to. -/
theorem validate_unreadable {bytes : Bytes} (unreadable : Unreadable ops bytes) :
    validate (env.reading ops double) (ofBytes bytes) = ({}, .error .jsonParseError) := by
  unfold validate JsonRequest.parse
  rw [if_neg (mt ofBytes_eq_empty.mp unreadable.1), sniper_reading, documentParse_reading,
    readText_unsaid ops double unreadable.2]
  rfl

/-- What stops any other body. -/
theorem stopped_of_readable {bytes : Bytes} (readable : ¬ Unreadable ops bytes) (ec : ErrorCode)
    (stopped : (validate (env.reading ops double) (ofBytes bytes)).2 = .error ec) :
    ec.AfterParse ∨ ec = .emptyPostData := by
  by_cases empty : bytes = []
  · subst empty
    rw [ofBytes_eq_empty.mpr rfl] at stopped
    cases stopped
    exact .inr rfl
  · obtain ⟨d, said⟩ : ∃ d, Says (readDouble ops) bytes d :=
      Classical.not_forall_not.mp fun unsaid => readable ⟨empty, unsaid⟩
    have parsed : (env.reading ops double).sniper.documentParse (ofBytes bytes)
        = some (toJson double d) := by
      rw [sniper_reading, documentParse_reading, readText_says ops double said]
    exact .inl ((validate_parsed (env.reading ops double) (ofBytes_ne_empty said) parsed).2 ec
      stopped)

/-- **Who is told that there is no document in a body.** The one reply to a body says so for the
bodies that spell none, but for the empty one, and for no others. Such a body is counted as
trash, and that is all that comes of it. -/
theorem unreadable_iff (bytes : Bytes) {w : Worker} (room : ¬ tooMany env w)
    (result : SendResult) :
    (((worker (env.reading ops double)).step w
          (.call (.request (ofBytes bytes) result))).2.filterMap Action.reply?
        = [unreadableReply env.strict] ↔ Unreadable ops bytes) ∧
      (Unreadable ops bytes →
        (worker (env.reading ops double)).step w (.call (.request (ofBytes bytes) result))
          = ({ w with counters := (w.counters.bump .total).bump .trash },
              [.reply (unreadableReply env.strict)])) := by
  have forgotten : Unreadable ops bytes →
      (worker (env.reading ops double)).step w (.call (.request (ofBytes bytes) result))
        = ({ w with counters := (w.counters.bump .total).bump .trash },
            [.reply (unreadableReply env.strict)]) := by
    intro unreadable
    have full : ¬ tooMany (env.reading ops double) (w.count .total) := room
    show onRequest (env.reading ops double) (ofBytes bytes) result w = _
    unfold onRequest handle
    rw [validate_unreadable ops double env unreadable]
    simp only [if_neg full, processErrorCode, makeErrorJson_eq]
    rfl
  refine ⟨⟨?_, ?_⟩, forgotten⟩
  · intro told
    by_contra readable
    have one := onRequest_replies (env.reading ops double) w (ofBytes bytes) result
    have answer : answerTo (env.reading ops double) w (ofBytes bytes) = _ := if_neg room
    have same := List.singleton_inj.mp (one.symm.trans told)
    rw [answer] at same
    have text := Option.some.inj (congrArg HttpResponse.data same)
    exact outcomeText_ne (env.reading ops double) _ _
      (stopped_of_readable ops double env readable) text
  · intro unreadable
    rw [forgotten unreadable]
    rfl

/-- A byte that is no part of any text, and nothing else. -/
theorem unreadable_iff_stray :
    ((worker ((Env.plain {}).reading .ieee fun _ => (0, 0))).step {}
        (.call (.request (ofBytes [0xFF]) (.accepted 1)))).2.filterMap Action.reply?
      = [unreadableReply false] := by
  have unsaid : ∀ d, ¬ Says (readDouble .ieee) [0xFF] d := by
    intro d said
    have parsed := said.parse
    cases parsed
  exact ((unreadable_iff .ieee (fun _ => (0, 0)) (.plain {}) [0xFF] (room_of_unlimited rfl {})
    (.accepted 1)).1).mpr ⟨List.cons_ne_nil _ _, unsaid⟩

end PeerNode
