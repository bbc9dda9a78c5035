import PeerNode.Rapidjson.RoundTrip
import PeerNode.Replies

/-!
# Replies, read back

A reply is written by one half of `rapidjson` and may well be read by the other: nodes are asked by
programs like themselves. `replies_read_back` follows a reply from the request it answers through
the bytes on the wire into the document its reader makes of them: the document is the reply's own,
and a search for `id` in it finds the id that the node goes by.

An id is the one number a reply carries that the node does not choose. It was read as an `int64_t`,
so it is written as one and fits.
-/

namespace PeerNode

open Rapidjson Mealy

variable {TX D : Type} {enc : Encoding}

/-! ## Replies that have a spelling -/

/-- An integer id is an `int64_t`. -/
def Held : Option RequestId → Prop
  | some (.int64 i) => -2 ^ 63 ≤ i ∧ i < 2 ^ 63
  | _ => True

theorem fits_idMembers (strict : Bool) {id? : Option RequestId} (held : Held id?) :
    ∀ m ∈ idMembers strict id?, Fits enc D m.2 := by
  match id?, held with
  | some (.int64 i), ⟨low, high⟩ =>
    have fits : Fits enc D (.int i) := fits_int (by omega) (by omega)
    exact List.forall_mem_singleton.mpr fits
  | some (.string s), _ => exact List.forall_mem_singleton.mpr (fits_str s)
  | none, _ =>
    cases strict with
    | true => exact List.forall_mem_singleton.mpr ⟨.null, rfl⟩
    | false => exact fun _ mem => absurd mem List.not_mem_nil

/-- Members of its own, and the id. -/
theorem fits_reply {members : List (String × Json)} (strict : Bool) {id? : Option RequestId}
    (each : ∀ m ∈ members, Fits enc D m.2) (held : Held id?) :
    Fits enc D (.obj (members ++ idMembers strict id?)) := by
  apply fits_obj
  intro m mem
  rcases List.mem_append.mp mem with own | id
  · exact each m own
  · exact fits_idMembers strict held m id

theorem fits_code (code : ErrorCode) : Fits enc D (.int code.toInt) := by
  cases code <;> exact fits_int (by decide) (by decide)

theorem fits_errorReply (strict : Bool) (code : ErrorCode) {id? : Option RequestId}
    (held : Held id?) : Fits enc D (errorReply strict code id?) := by
  apply fits_reply strict _ held
  cases strict with
  | true =>
    have error : Fits enc D
        (.obj [("code", .int code.toInt), ("message", .str (getErrorMessage code))]) :=
      fits_obj (List.forall_mem_cons.mpr
        ⟨fits_code code, List.forall_mem_singleton.mpr (fits_str _)⟩)
    exact List.forall_mem_cons.mpr ⟨fits_str _, List.forall_mem_singleton.mpr error⟩
  | false =>
    exact List.forall_mem_cons.mpr ⟨fits_str _, List.forall_mem_singleton.mpr (fits_str _)⟩

theorem fits_okReply (strict : Bool) (hashHex : String) {id? : Option RequestId}
    (held : Held id?) : Fits enc D (okReply strict hashHex id?) := by
  apply fits_reply strict _ held
  cases strict with
  | true =>
    have result : Fits enc D (.obj [("status", .str "ok"), ("params", .str hashHex)]) :=
      fits_obj (List.forall_mem_cons.mpr
        ⟨fits_str _, List.forall_mem_singleton.mpr (fits_str _)⟩)
    exact List.forall_mem_cons.mpr ⟨fits_str _, List.forall_mem_singleton.mpr result⟩
  | false =>
    exact List.forall_mem_cons.mpr ⟨fits_str _, List.forall_mem_singleton.mpr (fits_str _)⟩

theorem fits_getinfoReply (strict : Bool) (mhAddr : String) {id? : Option RequestId}
    (held : Held id?) : Fits enc D (getinfoReply strict mhAddr id?) := by
  have info : Fits enc D (.obj (infoMembers mhAddr)) := by
    apply fits_obj
    unfold infoMembers
    split
    · exact List.forall_mem_singleton.mpr (fits_str _)
    · exact List.forall_mem_cons.mpr ⟨fits_str _, List.forall_mem_singleton.mpr (fits_str _)⟩
  apply fits_reply strict _ held
  cases strict with
  | true => exact List.forall_mem_cons.mpr ⟨fits_str _, List.forall_mem_singleton.mpr info⟩
  | false => exact List.forall_mem_cons.mpr ⟨info, List.forall_mem_singleton.mpr ⟨.null, rfl⟩⟩

/-! ## From the request to the document of its reply -/

/-- A text is the spelling of one value only. -/
theorem ofList_render_inj {v v' : Json} (same : String.ofList v.render = String.ofList v'.render) :
    v = v' := by
  have read := congrArg (fun text => Json.parse text.toList) same
  simpa only [String.toList_ofList, Json.parse_render, Option.some.injEq] using read

variable (env : Env TX)

/-- What any outcome is answered with: a faithful reply that the reader has a value for. -/
theorem outcomeText_fits (json : JsonRequest) (counters : LocalCounters) (held : Held json.id)
    {outcome : Except ErrorCode TX} (h : ∀ ec, outcome = .error ec → ec.AfterParse) :
    ∃ reply, outcomeText env json counters outcome = String.ofList reply.render ∧
      Faithful env.strict json.id (outcomeKind outcome) reply ∧ Fits enc D reply := by
  obtain ⟨reply, text, faithful⟩ := outcomeText_faithful env json counters h
  refine ⟨reply, text, faithful, ?_⟩
  have written : ∃ reply', outcomeText env json counters outcome = String.ofList reply'.render ∧
      Fits enc D reply' := by
    cases outcome with
    | ok tx => exact ⟨_, makeOkJson_eq _ _ _ _, fits_okReply _ _ held⟩
    | error ec =>
      have read := h ec rfl
      cases ec with
      | getInfo => exact ⟨_, makeGetinfoJson_eq _ _ _, fits_getinfoReply _ _ held⟩
      | ok => exact read.elim
      | httpMethodNotSupported => exact read.elim
      | emptyPostData => exact read.elim
      | jsonParseError => exact read.elim
      | _ => exact ⟨_, makeErrorJson_eq _ _ _, fits_errorReply _ _ held⟩
  obtain ⟨reply', text', fits⟩ := written
  rwa [ofList_render_inj (text.symm.trans text')]

/-- **Every reply is read back.** A request that is let in and whose body reads as a document gets
one reply. Its bytes are read, whatever the outcome, as the document of a reply that is faithful to
the request, and what stands in it under `id` is the id the node goes by. -/
theorem replies_read_back (ops : DoubleOps D) (enc : Encoding) {body : String} {doc : Json}
    (nonempty : body ≠ "") (parsed : env.sniper.documentParse body = some doc)
    (held : Held (JsonRequest.read env.sniper doc).id) {w : Worker} (room : ¬ tooMany env w)
    (result : SendResult) :
    ∃ text reply d,
      ((worker env).step w (.call (.request body result))).2.filterMap Action.reply?
        = [{ code := 200, data := some text, headers := [allowOrigin] }] ∧
      Document.parse ops (enc.text text.toList) = .ok d ∧ ofJson enc reply = some d ∧
      Faithful env.strict (JsonRequest.read env.sniper doc).id
        (outcomeKind (validate env body).2) reply ∧
      d.findMember (enc.text "id".toList)
        = .ok ((replyId env.strict (JsonRequest.read env.sniper doc).id).bind (ofJson enc)) := by
  obtain ⟨envelope, stopped⟩ := validate_parsed env nonempty parsed
  rw [← envelope] at held ⊢
  obtain ⟨reply, text, faithful, d, fits⟩ := @outcomeText_fits TX D enc env (validate env body).1
    (w.count .total).counters held _ stopped
  have answer : answerTo env w body = _ := if_neg room
  refine ⟨outcomeText env (validate env body).1 (w.count .total).counters (validate env body).2,
    reply, d, ?_, ?_, fits, faithful, ?_⟩
  · rw [← answer]
    exact onRequest_replies env w body result
  · rw [text, String.toList_ofList]
    exact (spells_render enc reply fits).parse
  · rw [findMember_ofJson enc fits faithful.object (by rfl), faithful.id]

end PeerNode
