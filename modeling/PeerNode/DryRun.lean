import PeerNode.Classification
import PeerNode.HexPrefix

/-!
# A test is a dry run

`mhc_test_send` goes through every check `mhc_send` does, is answered with the same text and
counted in the same place. The method is looked at twice: to let both through, and at the
very end to forward only one. So what two such requests read is compared once, on the
document (`validate_twin`), and the rest follows from what the callback does with it.

That a test leaves no trace in the rest of a run is a fact about two runs, one with it and
one without. They differ in the six counters a flush moves, and nothing a worker answers or
sends depends on those: a callback does the same with all of them cleared (`step_core`).
-/

namespace PeerNode

open Mealy

variable {TX : Type} (env : Env TX)

/-! ## Two documents -/

/-- What is assumed of the library: the accessors read the members of an object, and an integer
is read off its member alone. -/
structure ReadsDocument {TX : Type} (sniper : Sniper TX) : Prop
    extends ReadsMembers sniper, ReadsParams sniper where
  getInt64_same : ∀ members members' name,
    (Json.obj members').member? name = (Json.obj members).member? name →
      sniper.getInt64 (.obj members') name = sniper.getInt64 (.obj members) name

/-- Two bodies that read as the same document, but that one sends and the other tests. -/
structure Twins (sniper : Sniper TX) (body body' : String)
    (members members' : List (String × Json)) : Prop where
  parsed : sniper.documentParse body = some (.obj members)
  parsed' : sniper.documentParse body' = some (.obj members')
  sends : members.lookup "method" = some (.str "mhc_send")
  tests : members'.lookup "method" = some (.str "mhc_test_send")
  others : ∀ name, name ≠ "method" → members'.lookup name = members.lookup name

section Reading

variable {sniper : Sniper TX} (reads : ReadsDocument sniper)
  {members members' : List (String × Json)} {name : String}
  (same : members'.lookup name = members.lookup name)
include reads same

theorem isString_same : sniper.isString (.obj members') name
    = sniper.isString (.obj members) name := by
  rw [Bool.eq_iff_iff, reads.isString, reads.isString, Json.member?_obj, Json.member?_obj, same]

theorem isNum_same : sniper.isNum (.obj members') name = sniper.isNum (.obj members) name := by
  rw [Bool.eq_iff_iff, reads.isNum, reads.isNum, Json.member?_obj, Json.member?_obj, same]

theorem isObj_same : sniper.isObj (.obj members') name = sniper.isObj (.obj members) name := by
  rw [Bool.eq_iff_iff, reads.isObj, reads.isObj, Json.member?_obj, Json.member?_obj, same]

/-- A string is read as the same string. -/
theorem getString_same (string : sniper.isString (.obj members) name = true) :
    sniper.getString (.obj members') name = sniper.getString (.obj members) name := by
  obtain ⟨s, member⟩ := (reads.isString members name).mp string
  rw [reads.getString members name s member]
  exact reads.getString members' name s (same.trans member)

end Reading

section Twin

variable {env} (reads : ReadsDocument env.sniper) {body body' : String}
  {members members' : List (String × Json)} (h : Twins env.sniper body body' members members')
include reads h

theorem read_method :
    (JsonRequest.read env.sniper (.obj members)).method = "mhc_send" ∧
      (JsonRequest.read env.sniper (.obj members')).method = "mhc_test_send" := by
  have isString := (reads.isString members "method").mpr ⟨_, h.sends⟩
  have isString' := (reads.isString members' "method").mpr ⟨_, h.tests⟩
  unfold JsonRequest.read
  simp only [isString, isString', if_true]
  exact ⟨reads.getString _ _ _ h.sends, reads.getString _ _ _ h.tests⟩

/-- The envelopes are the same but for the method. -/
theorem read_twin :
    (JsonRequest.read env.sniper (.obj members')).id
        = (JsonRequest.read env.sniper (.obj members)).id ∧
      (JsonRequest.read env.sniper (.obj members')).version
        = (JsonRequest.read env.sniper (.obj members)).version := by
  have id := h.others "id" (by decide)
  have jsonrpc := h.others "jsonrpc" (by decide)
  unfold JsonRequest.read
  simp only [isString_same reads id, isNum_same reads id, isString_same reads jsonrpc,
    reads.getInt64_same members members' "id" id]
  refine ⟨?_, ?_⟩
  · split
    · next string => rw [getString_same reads id string]
    · rfl
  · split
    · next string => exact getString_same reads jsonrpc string
    · rfl

/-- The check of the envelope takes either method. -/
theorem check_twin :
    (JsonRequest.read env.sniper (.obj members')).check env.strict
      = (JsonRequest.read env.sniper (.obj members)).check env.strict := by
  obtain ⟨sends, tests⟩ := read_method reads h
  unfold JsonRequest.check JsonRequest.isTransaction
  rw [sends, tests, (read_twin reads h).2]
  rfl

/-- The transactions are the same. -/
theorem transaction_twin :
    JsonTransaction.parse env.sniper (.obj members')
      = JsonTransaction.parse env.sniper (.obj members) := by
  have params := h.others "params" (by decide)
  unfold JsonTransaction.parse
  rw [isObj_same reads params, Json.member?_obj, Json.member?_obj, params]

/-- **The cascade does not look at the method**, once it has let it in. -/
theorem validate_twin :
    (validate env body').2 = (validate env body).2 ∧
      (validate env body').1.id = (validate env body).1.id ∧
      (validate env body').1.method = "mhc_test_send" := by
  have nonempty : ∀ {text doc}, env.sniper.documentParse text = some doc → text ≠ "" := by
    rintro text doc parsed rfl
    rw [reads.empty] at parsed
    cases parsed
  have filled := nonempty h.parsed
  have filled' := nonempty h.parsed'
  rw [(validate_parsed env filled h.parsed).1, (validate_parsed env filled' h.parsed').1]
  refine ⟨?_, (read_twin reads h).1, (read_method reads h).2⟩
  unfold validate JsonRequest.parse
  simp only [if_neg filled, if_neg filled', h.parsed, h.parsed', check_twin reads h,
    transaction_twin reads h]
  split
  · rfl
  · split
    · rfl
    · split
      · rfl
      · split <;> rfl

/-! ## Two requests -/

/-- The reply does not look at it either. -/
theorem answerTo_twin (w : Worker) : answerTo env w body' = answerTo env w body := by
  obtain ⟨outcome, id, -⟩ := validate_twin reads h
  have text : ∀ (json json' : JsonRequest) (c : LocalCounters) (outcome : Except ErrorCode TX),
      json'.id = json.id → outcomeText env json' c outcome = outcomeText env json c outcome := by
    intro json json' c outcome same
    cases outcome with
    | ok tx => simp only [outcomeText, makeOkJson_eq, same]
    | error ec =>
      cases ec <;>
        simp only [outcomeText, processErrorCode, makeErrorJson_eq, makeGetinfoJson_eq, same]
  unfold answerTo
  rw [outcome, text _ _ _ _ id]

/-- Nor does the class. -/
theorem requestClass_twin (w : Worker) : requestClass env w body' = requestClass env w body := by
  unfold requestClass
  rw [(validate_twin reads h).1]

/-- What passes every check is a test. -/
theorem unsent_twin (json : JsonRequest) (tx : TX) (valid : validate env body' = (json, .ok tx)) :
    json.isTestRansaction = true := by
  have method := (validate_twin reads h).2.2
  rw [valid] at method
  rw [JsonRequest.isTestRansaction, method]
  rfl

end Twin

/-- A test beside the request it tests, from one state: answered and counted the same, and
nothing else done. -/
structure DryRun (w : Worker) (sent tested : Worker × List Action) : Prop where
  reply : ∃ resp, sent.2.filterMap Action.reply? = [resp] ∧ tested.2 = [.reply resp]
  counters : ∀ f, tested.1.counters.get f = sent.1.counters.get f
  queue : tested.1.counters.queue = w.counters.queue
  outQueue : tested.1.outQueue = w.outQueue
  inFlight : tested.1.inFlight = w.inFlight
  made : tested.1.made = w.made

/-- A body that fails a check or is a test is not accepted. -/
theorem not_accepts_of_unsent {env : Env TX} {body : String}
    (unsent : ∀ json tx, validate env body = (json, .ok tx) → json.isTestRansaction = true)
    (w : Worker) (json : JsonRequest) (tx : TX) : ¬ Accepts env w body json tx := by
  intro accepts
  have real := accepts.real
  rw [unsent json tx accepts.valid] at real
  cases real

theorem dryRun_twin {env : Env TX} (reads : ReadsDocument env.sniper) {body body' : String}
    {members members' : List (String × Json)} (h : Twins env.sniper body body' members members')
    (w : Worker) (result result' : SendResult) :
    DryRun w (onRequest env body result w) (onRequest env body' result' w) := by
  obtain ⟨counters, queue, eq⟩ :=
    onRequest_declined env (not_accepts_of_unsent (unsent_twin reads h) w) result'
  refine ⟨?_, ?_, ?_, ?_, ?_, ?_⟩
  · rw [eq, answerTo_twin reads h]
    exact ⟨_, onRequest_replies env w body result, rfl⟩
  · intro f
    rw [onRequest_get, onRequest_get, requestClass_twin reads h]
  · rw [eq]
    exact queue
  · rw [eq]
  · rw [eq]
  · rw [eq]

/-! ## Two runs -/

/-- A worker with the six counters cleared. -/
def Worker.core (w : Worker) : Worker := { w with counters := clearCounters w.counters }

theorem core_eq {w : Worker} {counters : LocalCounters} (queue : counters.queue = w.counters.queue) :
    Worker.core { w with counters } = w.core := by
  simp only [Worker.core, clearCounters, queue]

theorem forward_core (tx : TX) (result : SendResult) (w : Worker) :
    forward env tx result w.core
      = ((forward env tx result w).1.core, (forward env tx result w).2) := by
  have made : w.core.made = w.made := rfl
  simp only [forward, made]
  cases makeHttpRequest env w.made (env.sniper.move tx) <;> cases result <;> rfl

theorem onResponse_core (w : Worker) (i : Nat) (code : Int) (result : SendResult) :
    onResponse env i code result w.core
      = ((onResponse env i code result w).1.core, (onResponse env i code result w).2) := by
  have flying : w.core.inFlight = w.inFlight := rfl
  unfold onResponse
  rw [flying]
  cases w.inFlight[i]? with
  | none => rfl
  | some req =>
    by_cases failed : code ≠ 200
    · by_cases young : req.generation < env.config.httpPostRetries.toNat
      · simp only [if_pos failed, if_pos young]
        cases result <;> rfl
      · simp only [if_pos failed, if_neg young]
        rfl
    · simp only [if_neg failed]
      rfl

theorem timerOutQueue_core (w : Worker) (results : Nat → SendResult) :
    timerOutQueue results w.core
      = ((timerOutQueue results w).1.core, (timerOutQueue results w).2) := by
  have waiting : w.core.outQueue = w.outQueue := rfl
  unfold timerOutQueue
  rw [waiting]
  by_cases empty : w.outQueue = []
  · rw [if_pos empty, if_pos empty]
  · have turn : ∀ i req (s : Worker × List Action), offer results i req (s.1.core, s.2)
        = ((offer results i req s).1.core, (offer results i req s).2) := by
      intro i req s
      cases answer : results i <;> simp only [offer, answer] <;> rfl
    have loop := @PopLoop.run_map _ _ _ 200 (offer results) (offer results)
      (fun s => (s.1.core, s.2)) turn 0 w.outQueue (w, [])
    rw [if_neg empty, if_neg empty, loop]
    rfl

/-- What is watched of a step: all it does but the merge, which carries the counters. -/
def watched (acts : List Action) : List Action :=
  acts.filter fun
    | .merge _ => false
    | _ => true

/-- The answer does not look at the six counters. -/
theorem answerTo_core (w : Worker) (body : String) :
    answerTo env w.core body = answerTo env w body := by
  have room : tooMany env w.core ↔ tooMany env w := Iff.rfl
  have text : ∀ (json : JsonRequest) (c c' : LocalCounters) (outcome : Except ErrorCode TX),
      outcomeText env json c' outcome = outcomeText env json c outcome := by
    intro json c c' outcome
    cases outcome with
    | ok tx => rfl
    | error ec => cases ec <;> rfl
  unfold answerTo
  simp only [room, text _ (w.count .total).counters (w.core.count .total).counters]

/-- A request the worker does not accept: it tests, asks for what the node says of itself, is
erroneous or is refused. -/
def Spare (w : Worker) (e : Event) : Prop :=
  ∃ body result, e = .call (.request body result) ∧ ∀ json tx, ¬ Accepts env w body json tx

/-- A request that fails a check or is a test is one, whatever the worker. -/
theorem spare_of_unsent {env : Env TX} {body : String}
    (unsent : ∀ json tx, validate env body = (json, .ok tx) → json.isTestRansaction = true)
    (w : Worker) (result : SendResult) : Spare env w (.call (.request body result)) :=
  ⟨body, result, rfl, not_accepts_of_unsent unsent w⟩

/-- Such a request leaves the core alone. -/
theorem spare_core {w : Worker} {e : Event} (spare : Spare env w e) :
    ((worker env).step w e).1.core = w.core := by
  obtain ⟨body, result, rfl, declined⟩ := spare
  obtain ⟨counters, queue, eq⟩ := onRequest_declined env declined result
  show (onRequest env body result w).1.core = w.core
  rw [eq]
  exact core_eq queue

theorem onRequest_core (w : Worker) (body : String) (result : SendResult) :
    (onRequest env body result w).1.core = (onRequest env body result w.core).1.core ∧
      (onRequest env body result w).2 = (onRequest env body result w.core).2 := by
  by_cases accepted : ∃ json tx, Accepts env w body json tx
  · obtain ⟨json, tx, accepts⟩ := accepted
    have accepts' : Accepts env w.core body json tx := ⟨accepts.room, accepts.valid, accepts.real⟩
    have counted : w.counted.core = w.core :=
      core_eq ((Counters.bump_queue _ _).trans (Counters.bump_queue _ _))
    have counted' : w.core.counted.core = w.core :=
      core_eq ((Counters.bump_queue _ _).trans (Counters.bump_queue _ _))
    have alone := forward_core env tx result w.counted
    have alone' := forward_core env tx result w.core.counted
    rw [counted] at alone
    rw [counted', alone] at alone'
    obtain ⟨cores, acts⟩ := Prod.mk.inj alone'
    rw [onRequest_of_accepts env accepts, onRequest_of_accepts env accepts']
    exact ⟨cores, congrArg (· ++ _) acts⟩
  · have declined : ∀ json tx, ¬ Accepts env w body json tx :=
      fun json tx accepts => accepted ⟨json, tx, accepts⟩
    have declined' : ∀ json tx, ¬ Accepts env w.core body json tx :=
      fun json tx accepts => accepted ⟨json, tx, accepts.room, accepts.valid, accepts.real⟩
    obtain ⟨counters, queue, eq⟩ := onRequest_declined env declined result
    obtain ⟨counters', queue', eq'⟩ := onRequest_declined env declined' result
    rw [eq, eq', answerTo_core]
    exact ⟨(core_eq queue).trans (core_eq queue').symm, rfl⟩

/-- **No callback looks at the six counters**: it does the same with them cleared, but for what a
flush merges. -/
theorem step_core (w : Worker) (e : Event) :
    ((worker env).step w e).1.core = ((worker env).step w.core e).1.core ∧
      watched ((worker env).step w e).2 = watched ((worker env).step w.core e).2 := by
  cases e with
  | call c =>
    cases c with
    | request body result =>
      obtain ⟨cores, acts⟩ := onRequest_core env w body result
      exact ⟨cores, congrArg watched acts⟩
    | response i code result =>
      show _ = (onResponse env i code result w.core).1.core ∧
        _ = watched (onResponse env i code result w.core).2
      rw [onResponse_core]
      exact ⟨rfl, rfl⟩
    | outQueue results =>
      show _ = (timerOutQueue results w.core).1.core ∧ _ = watched (timerOutQueue results w.core).2
      rw [timerOutQueue_core]
      exact ⟨rfl, rfl⟩
  | updateCounters =>
    have cleared : ∀ v : Worker, (timerUpdateCounters v).1.core = v.core ∧
        watched (timerUpdateCounters v).2 = [.store v.backlog] := by
      intro v
      unfold timerUpdateCounters
      split <;> exact ⟨rfl, rfl⟩
    obtain ⟨core, acts⟩ := cleared w
    obtain ⟨core', acts'⟩ := cleared w.core
    exact ⟨core.trans core'.symm, acts.trans acts'.symm⟩

/-- **`mhc_test_send` is a dry run of `mhc_send`.** It is answered and counted as the request it
tests and does nothing else; and put into a run with other requests that send nothing, it changes
no answer and no send of the others. -/
theorem test_send_is_dry_run (reads : ReadsDocument env.sniper) :
    (∀ (w : Worker) (body body' : String) (members members' : List (String × Json))
        (result result' : SendResult), Twins env.sniper body body' members members' →
      DryRun w (onRequest env body result w) (onRequest env body' result' w)) ∧
    ∀ (w : Worker) (es : List (Bool × Event)), (worker env).IdleInserts (Spare env) w es →
      ((worker env).ownAnswers w es).map watched
        = ((worker env).answers w (Machine.ownEvents es)).map watched := by
  refine ⟨?_, ?_⟩
  · intro w body body' members members' result result' h
    exact dryRun_twin reads h w result result'
  · intro w es inserts
    refine (worker env).noninterference (R := fun v t => v.core = t.core) watched ?_ ?_ es rfl
      inserts
    · intro v t e same
      obtain ⟨core, acts⟩ := step_core env v e
      obtain ⟨core', acts'⟩ := step_core env t e
      rw [same] at core acts
      exact ⟨core.trans core'.symm, acts.trans acts'.symm⟩
    · intro v t e same spare
      exact (spare_core env spare).trans same

/-! ## A test on plain libraries -/

/-- The members of `plainDocument`, with a method. -/
def plainMembers (method : String) : List (String × Json) :=
  [("id", .int 1), ("method", .str method),
   ("params", .obj
     [("to", .str "0x1"), ("value", .str "2"), ("nonce", .str "3"), ("pubkey", .str "0x4"),
      ("sign", .str "0x5")])]

/-- A body that tests what `plainSend` sends. -/
@[irreducible] def plainTestSend : String :=
  String.ofList (Json.obj (plainMembers "mhc_test_send")).render

theorem plain_readsDocument : ReadsDocument Sniper.plain where
  toReadsMembers := plain_readsMembers
  toReadsParams := plain_readsParams
  getInt64_same members members' name same := by
    simp only [Sniper.plain, same]

theorem plain_twins :
    Twins Sniper.plain plainSend plainTestSend (plainMembers "mhc_send")
      (plainMembers "mhc_test_send") where
  parsed := plainSend_parsed
  parsed' := by
    unfold plainTestSend
    exact plain_documentParse _
  sends := rfl
  tests := rfl
  others name other := by
    have ne : (name == "method") = false := beq_eq_false_iff_ne.mpr other
    simp only [plainMembers, List.lookup_cons, ne]

/-- A test beside the request it tests, and two of them put into a run of it. -/
theorem test_send_is_dry_run_plain :
    DryRun {} (onRequest (.plain {}) plainSend (.accepted 1) {})
        (onRequest (.plain {}) plainTestSend .refused {}) ∧
      ((worker (.plain {})).ownAnswers {}
          [(false, .call (.request plainTestSend .refused)),
           (true, .call (.request plainSend (.accepted 1))),
           (false, .call (.request plainTestSend .refused))]).map watched
        = ((worker (.plain {})).answers {} [.call (.request plainSend (.accepted 1))]).map
            watched := by
  obtain ⟨beside, put_in⟩ := test_send_is_dry_run (.plain {}) plain_readsDocument
  have spare := spare_of_unsent
    (@unsent_twin _ (.plain {}) plain_readsDocument _ _ _ _ plain_twins)
  refine ⟨beside _ _ _ _ _ _ _ plain_twins, put_in {} _ ⟨?_, ?_, ?_, trivial⟩⟩
  · exact fun _ => spare _ _
  · exact fun own => absurd own Bool.true_eq_false.mp
  · exact fun _ => spare _ _

end PeerNode
