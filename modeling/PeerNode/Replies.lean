import PeerNode.Moves

/-!
# What a reply says

A request whose body is read gets a JSON reply: ok, what the node says of itself, or an
error. There are two dialects and three builders, and the dispatcher of errors drops what is
known of the request in some of its branches. Read back, the reply of any outcome is one
object without repeated keys, says which of the three it is, and carries the id of the
request, an integer as an integer and a string as a string.

The callback answers once, and last (`onRequest_acts`), with what `answerTo` says.

The accessors of the document are the library's. That they read the members that are there is
the one thing assumed of them (`ReadsMembers`).
-/

namespace PeerNode

open Mealy

/-! ## Reading a request -/

/-- What is assumed of the library: an empty text is no document, and the accessors read the
members of an object. An integer is read if an `int64_t` holds it. -/
structure ReadsMembers {TX : Type} (sniper : Sniper TX) : Prop where
  empty : sniper.documentParse "" = none
  isString : ∀ members name, sniper.isString (.obj members) name = true ↔
    ∃ s, (Json.obj members).member? name = some (.str s)
  isNum : ∀ members name, sniper.isNum (.obj members) name = true ↔
    ∃ m e, (Json.obj members).member? name = some (.num m e)
  getString : ∀ members name s, (Json.obj members).member? name = some (.str s) →
    sniper.getString (.obj members) name = s
  getInt64 : ∀ members name i, (Json.obj members).member? name = some (.int i) →
    -2 ^ 63 ≤ i → i < 2 ^ 63 → sniper.getInt64 (.obj members) name = i

/-- The id a document carries: a string, an `int64_t`, or none. -/
def CarriesId (doc : Json) : Option RequestId → Prop
  | some (.string s) => doc.member? "id" = some (.str s)
  | some (.int64 i) => doc.member? "id" = some (.int i) ∧ -2 ^ 63 ≤ i ∧ i < 2 ^ 63
  | none => doc.member? "id" = none

section

variable {TX : Type} {sniper : Sniper TX} (reads : ReadsMembers sniper)
  {members : List (String × Json)}

include reads

/-- A number is an id: what `get_int64` makes of it. -/
theorem read_id_number {m e : Int} (member : (Json.obj members).member? "id" = some (.num m e)) :
    (JsonRequest.read sniper (.obj members)).id
      = some (.int64 (sniper.getInt64 (.obj members) "id")) := by
  have isString : ¬ sniper.isString (.obj members) "id" = true := by
    rw [reads.isString, member]
    simp
  have isNum := (reads.isNum members "id").mpr ⟨m, e, member⟩
  unfold JsonRequest.read
  simp only [if_neg isString, isNum, if_true]

/-- What is neither a string nor a number is no id. -/
theorem read_id_other (string : ∀ s, (Json.obj members).member? "id" ≠ some (.str s))
    (number : ∀ m e, (Json.obj members).member? "id" ≠ some (.num m e)) :
    (JsonRequest.read sniper (.obj members)).id = none := by
  have isString : ¬ sniper.isString (.obj members) "id" = true := by
    rw [reads.isString]
    rintro ⟨s, member⟩
    exact string s member
  have isNum : ¬ sniper.isNum (.obj members) "id" = true := by
    rw [reads.isNum]
    rintro ⟨m, e, member⟩
    exact number m e member
  unfold JsonRequest.read
  simp only [if_neg isString, if_neg isNum]

theorem read_id {id? : Option RequestId} (carries : CarriesId (.obj members) id?) :
    (JsonRequest.read sniper (.obj members)).id = id? := by
  match id?, carries with
  | some (.string s), carries =>
    have isString := (reads.isString members "id").mpr ⟨s, carries⟩
    unfold JsonRequest.read
    simp only [isString, if_true, reads.getString members "id" s carries]
  | some (.int64 i), ⟨member, low, high⟩ =>
    rw [read_id_number reads member, reads.getInt64 members "id" i member low high]
  | none, missing =>
    have absent : (Json.obj members).member? "id" = none := missing
    exact read_id_other reads (by simp [absent]) (by simp [absent])

end

theorem plain_readsMembers : ReadsMembers Sniper.plain where
  empty := by
    show Json.parse "".toList = none
    rw [String.toList_empty]
    rfl
  isString members name := by
    simp only [Sniper.plain]
    split <;> simp_all
  isNum members name := by
    simp only [Sniper.plain]
    split <;> simp_all
  getString members name s member := by
    simp only [Sniper.plain, member]
  getInt64 members name i member low high := by
    simp only [Sniper.plain, member]
    exact if_pos (by omega)

/-! ## Reading a reply -/

/-- The three replies. -/
inductive ReplyKind
  | ok
  | getinfo
  | error
deriving DecidableEq, Repr

/-- Which of the three a reply is, in either dialect: an error says what is wrong, an ok says so,
and what the node says of itself starts with its version. -/
def kindOf (reply : Json) : Option ReplyKind :=
  match reply.member? "error", reply.member? "result" with
  | some (.str _), _ => some .error
  | some (.obj _), _ => some .error
  | _, some (.str _) => some .ok
  | _, some (.obj info) =>
    if (info.lookup "status").isSome then some .ok
    else if (info.lookup "version").isSome then some .getinfo
    else none
  | _, _ => none

/-- The id a reply has to carry. -/
def replyId (strict : Bool) : Option RequestId → Option Json
  | some (.string s) => some (.str s)
  | some (.int64 i) => some (.int i)
  | none => if strict then some .null else none

/-- What a reply owes its reader. -/
structure Faithful (strict : Bool) (id? : Option RequestId) (kind : ReplyKind) (reply : Json) :
    Prop where
  object : ∃ members, reply = .obj members
  keys : reply.NoRepeatedKeys
  id : reply.member? "id" = replyId strict id?
  kind : kindOf reply = some kind

theorem lookup_idMembers (strict : Bool) (id? : Option RequestId) :
    (idMembers strict id?).lookup "id" = replyId strict id? := by
  match strict, id? with
  | _, some (.string _) => rfl
  | _, some (.int64 _) => rfl
  | true, none => rfl
  | false, none => rfl

theorem lookup_idMembers_other (strict : Bool) (id? : Option RequestId) {name : String}
    (h : (name == "id") = false) : (idMembers strict id?).lookup name = none := by
  match strict, id? with
  | _, some (.string _) => simp [idMembers, List.lookup_cons, h]
  | _, some (.int64 _) => simp [idMembers, List.lookup_cons, h]
  | true, none => simp [idMembers, List.lookup_cons, h]
  | false, none => rfl

theorem idMembers_keys (strict : Bool) (id? : Option RequestId) :
    ((idMembers strict id?).map (·.1)).Nodup ∧ (∀ m ∈ idMembers strict id?, m.1 = "id") ∧
      Json.NoRepeatedKeysMembers (idMembers strict id?) := by
  match strict, id? with
  | _, some (.string _) => simp [idMembers, Json.NoRepeatedKeys, Json.NoRepeatedKeysMembers]
  | _, some (.int64 _) => simp [idMembers, Json.NoRepeatedKeys, Json.NoRepeatedKeysMembers]
  | true, none => simp [idMembers, Json.NoRepeatedKeys, Json.NoRepeatedKeysMembers]
  | false, none => simp [idMembers, Json.NoRepeatedKeysMembers]

theorem noRepeatedKeysMembers_append {ms ns : List (String × Json)}
    (h : Json.NoRepeatedKeysMembers ms) (k : Json.NoRepeatedKeysMembers ns) :
    Json.NoRepeatedKeysMembers (ms ++ ns) := by
  induction ms with
  | nil => exact k
  | cons m ms ih => exact ⟨h.1, ih h.2⟩

/-- **The id spoils nothing**: members of a reply's own, none of them an id and no key twice, with
the id after them. -/
theorem faithful_with_id {strict : Bool} {id? : Option RequestId} {kind : ReplyKind}
    {own : List (String × Json)} (keys : (Json.obj own).NoRepeatedKeys)
    (idless : "id" ∉ own.map (·.1)) (own_kind : kindOf (.obj own) = some kind) :
    Faithful strict id? kind (.obj (own ++ idMembers strict id?)) := by
  obtain ⟨nodup, nested⟩ := keys
  obtain ⟨id_nodup, id_keys, id_nested⟩ := idMembers_keys strict id?
  refine ⟨⟨_, rfl⟩, ⟨?_, noRepeatedKeysMembers_append nested id_nested⟩, ?_, ?_⟩
  · rw [List.map_append]
    refine List.nodup_append.mpr ⟨nodup, id_nodup, ?_⟩
    rintro key mine _ theirs rfl
    obtain ⟨m, mem, rfl⟩ := List.mem_map.mp theirs
    rw [id_keys m mem] at mine
    exact idless mine
  · have missing : own.lookup "id" = none := by
      rw [List.lookup_eq_none_iff]
      intro m mem
      have other : "id" ≠ m.1 := fun same => idless (same ▸ List.mem_map_of_mem mem)
      exact bne_iff_ne.mpr other
    rw [Json.member?_obj, List.lookup_append, missing, Option.none_or, lookup_idMembers]
  · have same : ∀ name, (name == "id") = false →
        (Json.obj (own ++ idMembers strict id?)).member? name = (Json.obj own).member? name := by
      intro name other
      rw [Json.member?_obj, List.lookup_append, lookup_idMembers_other strict id? other,
        Option.or_none, Json.member?_obj]
    rw [← own_kind]
    unfold kindOf
    rw [same "error" rfl, same "result" rfl]

theorem errorReply_faithful (strict : Bool) (code : ErrorCode) (id? : Option RequestId) :
    Faithful strict id? .error (errorReply strict code id?) := by
  unfold errorReply
  cases strict <;>
    refine faithful_with_id ?_ (by simp) rfl <;>
    simp [Json.NoRepeatedKeys, Json.NoRepeatedKeysMembers]

theorem okReply_faithful (strict : Bool) (hashHex : String) (id? : Option RequestId) :
    Faithful strict id? .ok (okReply strict hashHex id?) := by
  unfold okReply
  cases strict <;>
    refine faithful_with_id ?_ (by simp) rfl <;>
    simp [Json.NoRepeatedKeys, Json.NoRepeatedKeysMembers]

theorem infoMembers_spec (mhAddr : String) :
    (infoMembers mhAddr).lookup "status" = none ∧
      ((infoMembers mhAddr).lookup "version").isSome = true ∧
      (Json.obj (infoMembers mhAddr)).NoRepeatedKeys := by
  unfold infoMembers
  split <;> simp [Json.NoRepeatedKeys, Json.NoRepeatedKeysMembers, List.lookup_cons]

theorem getinfoReply_faithful (strict : Bool) (mhAddr : String) (id? : Option RequestId) :
    Faithful strict id? .getinfo (getinfoReply strict mhAddr id?) := by
  obtain ⟨status, version, nodup, nested⟩ := infoMembers_spec mhAddr
  unfold getinfoReply
  cases strict <;>
    refine faithful_with_id ?_ (by simp) ?_ <;>
    simp [Json.NoRepeatedKeysMembers, Json.NoRepeatedKeys, kindOf, List.lookup_cons, nodup, nested,
      status, version]

/-! ## Every outcome -/

/-- The outcomes of a body that was read. -/
def ErrorCode.AfterParse : ErrorCode → Prop
  | .getInfo | .unsupportedVersion | .unsupportedMethod | .unsupportedParamsType
  | .noRequiredParams | .invalidTransaction | .verificationFailed => True
  | .ok | .httpMethodNotSupported | .emptyPostData | .jsonParseError => False

theorem check_afterParse (strict : Bool) (req : JsonRequest) :
    req.check strict = .ok ∨ (req.check strict).AfterParse := by
  unfold JsonRequest.check
  split
  · exact .inr trivial
  · split
    · split <;> exact .inr trivial
    · exact .inl rfl

theorem transaction_afterParse {TX : Type} (sniper : Sniper TX) (doc : Json) :
    (JsonTransaction.parse sniper doc).2 = .ok ∨
      (JsonTransaction.parse sniper doc).2.AfterParse := by
  unfold JsonTransaction.parse
  split
  · exact .inr trivial
  · dsimp only
    split
    · exact .inl rfl
    · exact .inr trivial

variable {TX : Type} (env : Env TX)

/-- Once the body is read, whatever stops the cascade knows the envelope. -/
theorem validate_parsed {body : String} {doc : Json} (nonempty : body ≠ "")
    (parsed : env.sniper.documentParse body = some doc) :
    (validate env body).1 = JsonRequest.read env.sniper doc ∧
      ∀ ec, (validate env body).2 = .error ec → ec.AfterParse := by
  unfold validate JsonRequest.parse
  rw [if_neg nonempty, parsed]
  dsimp only
  rcases check_afterParse env.strict (JsonRequest.read env.sniper doc) with checked | stopped
  · rcases transaction_afterParse env.sniper doc with complete | stopped
    · simp only [checked, complete, ne_eq, not_true_eq_false, if_false]
      split
      · refine ⟨rfl, ?_⟩
        rintro ec ⟨⟩
        trivial
      · split
        · refine ⟨rfl, ?_⟩
          rintro ec ⟨⟩
          trivial
        · refine ⟨rfl, ?_⟩
          rintro ec ⟨⟩
    · have failed : (JsonTransaction.parse env.sniper doc).2 ≠ .ok := by
        intro ok
        rw [ok] at stopped
        exact stopped
      simp only [checked, ne_eq, not_true_eq_false, if_false, failed, not_false_eq_true, if_true]
      refine ⟨trivial, ?_⟩
      rintro ec ⟨⟩
      exact stopped
  · have failed : (JsonRequest.read env.sniper doc).check env.strict ≠ .ok := by
      intro ok
      rw [ok] at stopped
      exact stopped
    rw [if_pos failed]
    refine ⟨rfl, ?_⟩
    rintro ec ⟨⟩
    exact stopped

/-- The kind of reply an outcome calls for. -/
def outcomeKind (outcome : Except ErrorCode TX) : ReplyKind :=
  match outcome with
  | .ok _ => .ok
  | .error .getInfo => .getinfo
  | .error _ => .error

/-- What the dispatcher of errors writes is faithful to the request it is given. -/
theorem processErrorCode_faithful (json : JsonRequest) {ec : ErrorCode} (h : ec.AfterParse)
    (counters : LocalCounters) :
    ∃ reply, (processErrorCode env json ec counters).1 = String.ofList reply.render ∧
      Faithful env.strict json.id (outcomeKind (.error ec : Except ErrorCode TX)) reply := by
  cases ec with
  | getInfo =>
    exact ⟨_, makeGetinfoJson_eq _ _ _, getinfoReply_faithful _ _ _⟩
  | ok => exact h.elim
  | httpMethodNotSupported => exact h.elim
  | emptyPostData => exact h.elim
  | jsonParseError => exact h.elim
  | _ => exact ⟨_, makeErrorJson_eq _ _ _, errorReply_faithful _ _ _⟩

/-- The text an outcome is answered with. -/
def outcomeText (json : JsonRequest) (counters : LocalCounters) :
    Except ErrorCode TX → String
  | .ok tx => makeOkJson env.sniper env.strict (env.sniper.raw tx) json
  | .error ec => (processErrorCode env json ec counters).1

theorem outcomeText_faithful (json : JsonRequest) (counters : LocalCounters)
    {outcome : Except ErrorCode TX} (h : ∀ ec, outcome = .error ec → ec.AfterParse) :
    ∃ reply, outcomeText env json counters outcome = String.ofList reply.render ∧
      Faithful env.strict json.id (outcomeKind outcome) reply := by
  cases outcome with
  | ok tx => exact ⟨_, makeOkJson_eq _ _ _ _, okReply_faithful _ _ _⟩
  | error ec => exact processErrorCode_faithful env json (h ec rfl) counters

/-- What a request is answered. -/
def answerTo (w : Worker) (body : String) : HttpResponse :=
  if tooMany env w then { code := 429, connectionClose := true, headers := [allowOrigin] }
  else
    { code := 200
      data := some (outcomeText env (validate env body).1 (w.count .total).counters
        (validate env body).2)
      headers := [allowOrigin] }

/-- The actions that neither answer a user nor belong to a flush. -/
def Action.outward : Action → Prop
  | .send .. | .response .. | .park _ | .logErr _ => True
  | .reply _ | .store _ | .merge _ => False

theorem send_outward (w : Worker) (site : Site) (id : Nat) (req? : Option Request)
    (result : SendResult) : (w.send site id req? result).2.2.outward := by
  rcases w.send_cases site id req? result with ⟨_, _, _, _, sent⟩ | lost
  · rw [sent]
    trivial
  · rw [lost]
    trivial

theorem forward_outward (tx : TX) (result : SendResult) (w : Worker) :
    ∀ a ∈ (forward env tx result w).2, a.outward := by
  have sends := send_outward { w with made := w.made + 1 } .forward w.made
    (makeHttpRequest env w.made (env.sniper.move tx)) result
  intro a mem
  unfold forward at mem
  dsimp only at mem
  split at mem
  · rwa [List.mem_singleton.mp mem]
  · rcases List.mem_pair.mp mem with rfl | rfl
    · exact sends
    · trivial

/-- A request is answered last. -/
theorem onRequest_acts (w : Worker) (body : String) (result : SendResult) :
    ∃ acts, (∀ a ∈ acts, a.outward) ∧
      (onRequest env body result w).2 = acts ++ [.reply (answerTo env w body)] := by
  have same : tooMany env (w.count .total) ↔ tooMany env w := Iff.rfl
  have silent : ∀ a ∈ ([] : List Action), a.outward := fun _ mem => absurd mem List.not_mem_nil
  unfold onRequest handle answerTo
  by_cases full : tooMany env w
  · simp only [if_pos full, if_pos (same.mpr full)]
    exact ⟨[], silent, rfl⟩
  · simp only [if_neg full, if_neg (mt same.mp full)]
    cases validate env body with
    | mk json outcome =>
      cases outcome with
      | error ec => exact ⟨[], silent, rfl⟩
      | ok tx =>
        by_cases test : json.isTestRansaction = true
        · simp only [test, Bool.not_true, Bool.false_eq_true, if_false]
          exact ⟨[], silent, rfl⟩
        · simp only [test, Bool.not_false, if_true]
          exact ⟨_, forward_outward env tx result _, rfl⟩

/-- What an action replies. -/
def Action.reply? : Action → Option HttpResponse
  | .reply resp => some resp
  | _ => none

theorem replies_outward {acts : List Action} (h : ∀ a ∈ acts, a.outward) :
    acts.filterMap Action.reply? = [] := by
  apply List.filterMap_eq_nil_iff.mpr
  intro a mem
  have out := h a mem
  cases a with
  | reply resp => exact out.elim
  | _ => rfl

/-- **One reply**: the answer, and no other. -/
theorem onRequest_replies (w : Worker) (body : String) (result : SendResult) :
    (onRequest env body result w).2.filterMap Action.reply? = [answerTo env w body] := by
  obtain ⟨acts, outward, eq⟩ := onRequest_acts env w body result
  rw [eq, List.filterMap_append, replies_outward outward]
  rfl

/-- What a request that is let in is answered: the text of its outcome. -/
theorem onRequest_reply {w : Worker} (room : ¬ tooMany env w) (body : String)
    (result : SendResult) (resp : HttpResponse) :
    .reply resp ∈ (onRequest env body result w).2 ↔
      resp =
        { code := 200
          data := some (outcomeText env (validate env body).1 (w.count .total).counters
            (validate env body).2)
          headers := [allowOrigin] } := by
  obtain ⟨acts, outward, eq⟩ := onRequest_acts env w body result
  have answer : answerTo env w body = _ := if_neg room
  rw [eq, List.mem_append, List.mem_singleton, ← answer]
  constructor
  · rintro (before | last)
    · exact (outward _ before).elim
    · exact Action.reply.inj last
  · rintro rfl
    exact .inr rfl

/-- **Every reply is decodable and carries the caller's id.** A request that is let in and whose
body reads as an object gets one reply, whatever its outcome. Its text reads as one object without
repeated keys, with the id of the request and no other, and says of which kind it is. -/
theorem every_reply_decodes (reads : ReadsMembers env.sniper) {body : String}
    {members : List (String × Json)} (id? : Option RequestId)
    (parsed : env.sniper.documentParse body = some (.obj members))
    (carries : CarriesId (.obj members) id?) {w : Worker} (room : ¬ tooMany env w)
    (result : SendResult) :
    ∃ text reply,
      (∀ resp, .reply resp ∈ ((worker env).step w (.call (.request body result))).2 ↔
        resp = { code := 200, data := some text, headers := [allowOrigin] }) ∧
      Json.parse text.toList = some reply ∧
      Faithful env.strict id? (outcomeKind (validate env body).2) reply := by
  have nonempty : body ≠ "" := by
    rintro rfl
    rw [reads.empty] at parsed
    cases parsed
  obtain ⟨envelope, stopped⟩ := validate_parsed env nonempty parsed
  obtain ⟨reply, text, faithful⟩ := outcomeText_faithful env (validate env body).1
    (w.count .total).counters stopped
  refine ⟨_, reply, onRequest_reply env room body result, ?_, ?_⟩
  · rw [text, String.toList_ofList, Json.parse_render]
  · rwa [envelope, read_id reads carries] at faithful

/-- The reply to a request whose id is an integer. -/
theorem every_reply_decodes_plain :
    ∃ text reply,
      (∀ resp, .reply resp ∈ ((worker (.plain {})).step {}
          (.call (.request plainSend (.accepted 1)))).2 ↔
        resp = { code := 200, data := some text, headers := [allowOrigin] }) ∧
      Json.parse text.toList = some reply ∧
      Faithful false (some (.int64 1)) (outcomeKind (validate (.plain {}) plainSend).2) reply :=
  every_reply_decodes (.plain {}) plain_readsMembers (some (.int64 1)) plainSend_parsed
    ⟨rfl, by decide, by decide⟩ (room_of_unlimited rfl _) (.accepted 1)

end PeerNode
