import PeerNode.Lib.JsonRoundTrip
import PeerNode.Worker

/-!
# What a callback does to the requests

A worker has three callbacks that move requests and one that does not. Between them they
branch a dozen times, and a tick of the out queue moves many requests at once. But there
are only a few ways for one request to move, and `Move` lists them: a request is made and
forwarded, or lost in the attempt; its response is a 200, or it is sent again, or that
fails, or it is parked; a parked request is offered, or lost in the attempt. Each
constructor carries the event it answers and the guard it stands under.

`step_moves` is the inversion: every step is a chain of such moves, in order, with exactly
the actions the step emits. An invariant of the worker is checked against the nine
constructors and never against a callback.
-/

namespace PeerNode

open Mealy

variable {TX : Type} (env : Env TX)

/-! ## What a request may do -/

/-- A request that is let in and carries a verified transaction the user wants sent. -/
structure Accepts (w : Worker) (body : String) (json : JsonRequest) (tx : TX) : Prop where
  room : ¬ tooMany env w
  valid : validate env body = (json, .ok tx)
  real : json.isTestRansaction = false

/-- The reply to such a request. -/
def acceptedReply (json : JsonRequest) (tx : TX) : HttpResponse where
  code := 200
  data := some (makeOkJson env.sniper env.strict (env.sniper.raw tx) json)
  headers := [allowOrigin]

/-- The worker once it has counted an accepted request. -/
def Worker.counted (w : Worker) : Worker := (w.count .total).count .success

/-- A request every plain worker with room accepts, as a document. -/
def plainDocument : Json :=
  .obj
    [("id", .int 1), ("method", .str "mhc_send"),
     ("params", .obj
       [("to", .str "0x1"), ("value", .str "2"), ("nonce", .str "3"), ("pubkey", .str "0x4"),
        ("sign", .str "0x5")])]

/-- And as the body that spells it. What matters of it is how it reads. -/
@[irreducible] def plainSend : String := String.ofList plainDocument.render

/-- A worker on plain libraries. -/
def Env.plain (config : Config) : Env Bytes where
  config := config
  key := .plain
  sniper := .plain
  strict := false

theorem plain_documentParse (doc : Json) :
    Sniper.plain.documentParse (String.ofList doc.render) = some doc := by
  show Json.parse (String.ofList doc.render).toList = some doc
  rw [String.toList_ofList, Json.parse_render]

theorem plainSend_parsed : Sniper.plain.documentParse plainSend = some plainDocument := by
  unfold plainSend
  exact plain_documentParse plainDocument

/-- What a body that reads as `plainDocument` says. -/
theorem plain_validate (config : Config) {body : String}
    (parsed : Sniper.plain.documentParse body = some plainDocument) :
    validate (.plain config) body
      = ({ id := some (.int64 1), method := "mhc_send" }, .ok [49]) := by
  have nonempty : body ≠ "" := by
    rintro rfl
    have unread : Sniper.plain.documentParse "" = none := by
      show Json.parse "".toList = none
      rw [String.toList_empty]
      rfl
    rw [unread] at parsed
    cases parsed
  have request : JsonRequest.parse Sniper.plain false body =
      ({ id := some (.int64 1), method := "mhc_send" }, plainDocument, .ok) := by
    rw [JsonRequest.parse, if_neg nonempty, parsed]
    rfl
  simp only [validate, Env.plain, request]
  rfl

/-- Without a limit there is room. -/
theorem room_of_unlimited {env : Env TX} (unlimited : env.config.threadQueueSize = 0) (w : Worker) :
    ¬ tooMany env w :=
  fun full => full.1 unlimited

theorem plain_accepts {config : Config} {w : Worker} (room : ¬ tooMany (.plain config) w) :
    Accepts (.plain config) w plainSend { id := some (.int64 1), method := "mhc_send" } [49] :=
  ⟨room, plain_validate config plainSend_parsed, rfl⟩

theorem processErrorCode_queue (json : JsonRequest) (ec : ErrorCode) (c : LocalCounters) :
    (processErrorCode env json ec c).2.queue = c.queue := by
  cases ec <;> exact Counters.bump_queue c _

/-- An accepted request is counted, forwarded and answered. -/
theorem onRequest_of_accepts {w : Worker} {body : String} {json : JsonRequest} {tx : TX}
    (h : Accepts env w body json tx) (result : SendResult) :
    onRequest env body result w =
      ((forward env tx result w.counted).1,
        (forward env tx result w.counted).2 ++ [.reply (acceptedReply env json tx)]) := by
  have room : ¬ tooMany env (w.count .total) := h.room
  simp only [onRequest, handle, if_neg room, h.valid, h.real, Bool.not_false, if_true]
  rfl

@[simp] theorem forward_made (tx : TX) (result : SendResult) (w : Worker) :
    (forward env tx result w).1.made = w.made + 1 := by
  simp only [forward]
  cases makeHttpRequest env w.made (env.sniper.move tx) <;> cases result <;> rfl

@[simp] theorem forward_get (tx : TX) (result : SendResult) (w : Worker) (f : Field) :
    (forward env tx result w).1.counters.get f = w.counters.get f := by
  simp only [forward]
  cases makeHttpRequest env w.made (env.sniper.move tx) <;> cases result <;> cases f <;> rfl

/-- The forward of an accepted request does not reply. -/
theorem forward_no_reply (tx : TX) (result : SendResult) (w : Worker) (resp : HttpResponse) :
    .reply resp ∉ (forward env tx result w).2 := by
  simp only [forward]
  cases makeHttpRequest env w.made (env.sniper.move tx) <;> cases result <;> simp [Worker.send]

/-- What the plain request makes a fresh plain worker do. -/
theorem onRequest_plain {config : Config} (room : ¬ tooMany (.plain config) {})
    (result : SendResult) :
    onRequest (.plain config) plainSend result {} =
      ((forward (.plain config) [49] result ({} : Worker).counted).1,
        (forward (.plain config) [49] result ({} : Worker).counted).2 ++
          [.reply (acceptedReply (.plain config)
            { id := some (.int64 1), method := "mhc_send" } [49])]) :=
  onRequest_of_accepts (.plain config) (plain_accepts room) result

theorem after_plain {config : Config} (room : ¬ tooMany (.plain config) {}) (result : SendResult) :
    after (.plain config) [.call (.request plainSend result)]
      = (forward (.plain config) [49] result ({} : Worker).counted).1 := by
  show (onRequest (.plain config) plainSend result {}).1 = _
  rw [onRequest_plain room]

theorem done_plain {config : Config} (room : ¬ tooMany (.plain config) {}) (result : SendResult) :
    done (.plain config) [.call (.request plainSend result)]
      = (forward (.plain config) [49] result ({} : Worker).counted).2 ++
        [.reply (acceptedReply (.plain config)
          { id := some (.int64 1), method := "mhc_send" } [49])] := by
  show (onRequest (.plain config) plainSend result {}).2 ++ [] = _
  rw [onRequest_plain room, List.append_nil]

/-- A worker that resends a request once. -/
def resendsOnce : Config := { httpPostRetries := 2 }

/-- A transaction that fails and is sent again, and fails and is parked. -/
def parkedTwice : List Event :=
  [.call (.request plainSend (.accepted 1))] ++
    [.call (.response 0 500 (.accepted 2)), .call (.response 0 500 .refused)]

/-- A tick offers it. -/
def offeredOnce : Event := .call (.outQueue fun _ => .accepted 1)

/-- And it is acknowledged. -/
def travelled : List Event := parkedTwice ++ [offeredOnce, .call (.response 0 200 .refused)]

/-- Any other request moves counters and is answered, and does nothing else. -/
theorem onRequest_of_not_accepts {w : Worker} {body : String}
    (h : ∀ json tx, ¬ Accepts env w body json tx) (result : SendResult) :
    ∃ counters resp, counters.queue = w.counters.queue ∧
      onRequest env body result w = ({ w with counters }, [.reply resp]) := by
  by_cases room : tooMany env (w.count .total)
  · refine ⟨(w.count .total).counters,
      { code := 429, connectionClose := true, headers := [allowOrigin] },
      Counters.bump_queue _ _, ?_⟩
    simp only [onRequest, handle, if_pos room]
    rfl
  · cases valid : validate env body with
    | mk json outcome =>
      cases outcome with
      | error ec =>
        refine ⟨(processErrorCode env json ec (w.count .total).counters).2,
          { code := 200
            data := some (processErrorCode env json ec (w.count .total).counters).1
            headers := [allowOrigin] },
          (processErrorCode_queue env json ec _).trans (Counters.bump_queue _ _), ?_⟩
        simp only [onRequest, handle, if_neg room, valid]
        rfl
      | ok tx =>
        have test : json.isTestRansaction = true := by
          by_contra real
          exact h json tx ⟨room, valid, Bool.eq_false_iff.mpr real⟩
        refine ⟨w.counted.counters, acceptedReply env json tx,
          (Counters.bump_queue _ _).trans (Counters.bump_queue _ _), ?_⟩
        simp only [onRequest, handle, if_neg room, valid, test, Bool.not_true, Bool.false_eq_true,
          if_false]
        rfl

/-- The request that is made, if the signature succeeds. -/
theorem makeHttpRequest_eq_some {id : Nat} {rawTx : Bytes} {req : Request} :
    makeHttpRequest env id rawTx = some req ↔
      ∃ sigDer, env.key.sign rawTx = some sigDer ∧
        req =
          { id
            generation := env.sniper.freshGeneration
            method := .post
            domain := env.config.network
            query := "pubk=" ++ env.key.hexPubkey ++ "&sign=" ++ env.sniper.bin2hexAppend sigDer
            data := rawTx } := by
  unfold makeHttpRequest sign
  cases env.key.sign rawTx with
  | none => simp
  | some sigDer => simp [eq_comm]

/-- The object a request is made into carries the number it is made with. -/
theorem makeHttpRequest_id {id : Nat} {rawTx : Bytes} {req : Request}
    (h : makeHttpRequest env id rawTx = some req) : req.id = id := by
  obtain ⟨_, -, rfl⟩ := (makeHttpRequest_eq_some env).mp h
  rfl

/-! ## Sends -/

namespace Worker

variable (w : Worker) (site : Site) (id : Nat)

/-- A request that is put in flight. -/
def launch (req : Request) (generation : Nat) : Worker :=
  { w with inFlight := w.inFlight ++ [{ req with generation }] }

/-- The `i`-th request in flight comes down. -/
def land (i : Nat) : Worker := { w with inFlight := w.inFlight.eraseIdx i }

@[simp] theorem addQueue_queue (d : Int) :
    (w.addQueue d).counters.queue = w.counters.queue + d := rfl

@[simp] theorem addQueue_outQueue (d : Int) : (w.addQueue d).outQueue = w.outQueue := rfl

@[simp] theorem addQueue_inFlight (d : Int) : (w.addQueue d).inFlight = w.inFlight := rfl

@[simp] theorem addQueue_made (d : Int) : (w.addQueue d).made = w.made := rfl

@[simp] theorem launch_queue (req : Request) (generation : Nat) :
    (w.launch req generation).counters.queue = w.counters.queue := rfl

@[simp] theorem launch_outQueue (req : Request) (generation : Nat) :
    (w.launch req generation).outQueue = w.outQueue := rfl

@[simp] theorem launch_inFlight (req : Request) (generation : Nat) :
    (w.launch req generation).inFlight = w.inFlight ++ [{ req with generation }] := rfl

@[simp] theorem launch_made (req : Request) (generation : Nat) :
    (w.launch req generation).made = w.made := rfl

@[simp] theorem land_queue (i : Nat) : (w.land i).counters.queue = w.counters.queue := rfl

@[simp] theorem land_outQueue (i : Nat) : (w.land i).outQueue = w.outQueue := rfl

@[simp] theorem land_inFlight (i : Nat) : (w.land i).inFlight = w.inFlight.eraseIdx i := rfl

@[simp] theorem land_made (i : Nat) : (w.land i).made = w.made := rfl

/-- A request in flight is there besides the others. -/
theorem land_perm {i : Nat} {req : Request} (flying : w.inFlight[i]? = some req) :
    (req :: (w.land i).inFlight).Perm w.inFlight := by
  obtain ⟨bound, rfl⟩ := List.getElem?_eq_some_iff.mp flying
  exact List.getElem_cons_eraseIdx_perm bound

/-- A send is accepted and puts its request in flight, or refused and changes nothing. -/
theorem send_cases (req? : Option Request) (result : SendResult) :
    (∃ req generation, req? = some req ∧ result = .accepted generation ∧
      w.send site id req? result =
        (w.launch req generation, true, .send site id (some req) (.accepted generation))) ∨
    w.send site id req? result = (w, false, .send site id req? .refused) := by
  cases req? with
  | none => exact .inr rfl
  | some req =>
    cases result with
    | refused => exact .inr rfl
    | accepted generation => exact .inl ⟨req, generation, rfl, rfl, rfl⟩

end Worker

/-! ## Moves -/

/-- The actions that are about no request to the network. -/
def Action.aside : Action → Prop
  | .reply _ | .store _ | .merge _ | .logErr _ => True
  | .send .. | .response .. | .park _ => False

/-- What is read off a trace and is not in any of those actions is not in a list of them. -/
theorem filterMap_aside {β : Type} {f : Action → Option β} (silent : ∀ a, a.aside → f a = none)
    {acts : List Action} (h : ∀ a ∈ acts, a.aside) : acts.filterMap f = [] := by
  apply List.filterMap_eq_nil_iff.mpr
  intro a mem
  exact silent a (h a mem)

theorem countP_aside {p : Action → Bool} (silent : ∀ a, a.aside → p a = false)
    {acts : List Action} (h : ∀ a ∈ acts, a.aside) : acts.countP p = 0 := by
  apply List.countP_eq_zero.mpr
  intro a mem
  rw [silent a (h a mem)]
  exact Bool.false_ne_true

/-- The ways a request moves on an event, and what is emitted on the way. -/
inductive Move (e : Event) : Worker → List Action → Worker → Prop
  /-- No request moves: counters other than `queue` do, and replies go out. -/
  | aside {w w' : Worker} {acts : List Action} (queue : w'.counters.queue = w.counters.queue)
    (outQueue : w'.outQueue = w.outQueue) (inFlight : w'.inFlight = w.inFlight)
    (made : w'.made = w.made) (acts_aside : ∀ a ∈ acts, a.aside) : Move e w acts w'
  /-- A request is made and forwarded. -/
  | forwarded {w : Worker} {body : String} {json : JsonRequest} {tx : TX} {req : Request}
    {generation : Nat} (event : e = .call (.request body (.accepted generation)))
    (accepts : Accepts env w body json tx)
    (request : makeHttpRequest env w.made (env.sniper.move tx) = some req) :
    Move e w [.send .forward w.made (some req) (.accepted generation)]
      (({ w with made := w.made + 1 }.launch req generation).addQueue 1)
  /-- A request is made, or not even that, and not forwarded. -/
  | forwardLost {w : Worker} {body : String} {json : JsonRequest} {tx : TX}
    {req? : Option Request} {result : SendResult} (event : e = .call (.request body result))
    (accepts : Accepts env w body json tx)
    (request : makeHttpRequest env w.made (env.sniper.move tx) = req?) :
    Move e w [.send .forward w.made req? .refused] { w with made := w.made + 1 }
  /-- The response is a 200. -/
  | acknowledged {w : Worker} {i : Nat} {req : Request} {result : SendResult}
    (event : e = .call (.response i 200 result)) (flying : w.inFlight[i]? = some req) :
    Move e w [.response req.id 200] ((w.land i).addQueue (-1))
  /-- The response is not, there are retries left and the request is sent again. -/
  | resent {w : Worker} {i : Nat} {req : Request} {code : Int} {generation : Nat}
    (event : e = .call (.response i code (.accepted generation)))
    (flying : w.inFlight[i]? = some req) (failed : code ≠ 200)
    (young : req.generation < env.config.httpPostRetries.toNat) :
    Move e w [.response req.id code, .send .resend req.id (some req) (.accepted generation)]
      ((w.land i).launch req generation)
  /-- The same, but the send is refused. -/
  | resendLost {w : Worker} {i : Nat} {req : Request} {code : Int} {result : SendResult}
    (event : e = .call (.response i code result)) (flying : w.inFlight[i]? = some req)
    (failed : code ≠ 200) (young : req.generation < env.config.httpPostRetries.toNat) :
    Move e w [.response req.id code, .send .resend req.id (some req) .refused]
      ((w.land i).addQueue (-1))
  /-- There are no retries left and the request is parked. -/
  | parked {w : Worker} {i : Nat} {req : Request} {code : Int} {result : SendResult}
    (event : e = .call (.response i code result)) (flying : w.inFlight[i]? = some req)
    (failed : code ≠ 200) (old : env.config.httpPostRetries.toNat ≤ req.generation) :
    Move e w [.response req.id code, .park req]
      ({ w.land i with outQueue := w.outQueue ++ [req] }.addQueue (-1))
  /-- The first of the queue is offered and taken. -/
  | offered {w : Worker} {req : Request} {rest : List Request} {generation : Nat}
    {results : Nat → SendResult} (event : e = .call (.outQueue results))
    (first : w.outQueue = req :: rest) :
    Move e w [.send .outQueue req.id (some req) (.accepted generation)]
      (({ w with outQueue := rest }.launch req generation).addQueue 1)
  /-- The first of the queue is offered and refused. -/
  | offerLost {w : Worker} {req : Request} {rest : List Request} {results : Nat → SendResult}
    (event : e = .call (.outQueue results)) (first : w.outQueue = req :: rest) :
    Move e w [.send .outQueue req.id (some req) .refused] { w with outQueue := rest }

variable {e : Event}

/-- Emitting what is about no request is a move. -/
theorem Move.emit (w : Worker) {a : Action} (h : a.aside) : Move env e w [a] w := by
  refine .aside rfl rfl rfl rfl ?_
  intro b hb
  rwa [List.mem_singleton.mp hb]

theorem Move.reply (w : Worker) (resp : HttpResponse) : Move env e w [.reply resp] w :=
  .emit env w (a := .reply resp) trivial

theorem Move.logErr (w : Worker) (msg : String) : Move env e w [.logErr msg] w :=
  .emit env w (a := .logErr msg) trivial

/-- A worker whose counters other than `queue` move. -/
theorem Move.recount {w : Worker} {counters : LocalCounters}
    (h : counters.queue = w.counters.queue) : Move env e w [] { w with counters } :=
  .aside h rfl rfl rfl fun _ hb => absurd hb List.not_mem_nil

/-! ## Every step is a chain of moves -/

theorem forward_moves {w : Worker} {body : String} {json : JsonRequest} {tx : TX}
    {result : SendResult} (event : e = .call (.request body result))
    (accepts : Accepts env w body json tx) :
    Chain (Move env e) w (forward env tx result w).2 (forward env tx result w).1 := by
  simp only [forward]
  generalize request : makeHttpRequest env w.made (env.sniper.move tx) = req?
  rcases Worker.send_cases { w with made := w.made + 1 } .forward w.made req? result with
    ⟨req, generation, rfl, rfl, sent⟩ | lost
  · rw [sent]
    exact .single (.forwarded event accepts request)
  · rw [lost]
    exact (Chain.pair (Move.forwardLost event accepts request) (Move.logErr env _ clientError) :)

theorem onRequest_moves {w : Worker} {body : String} {result : SendResult}
    (event : e = .call (.request body result)) :
    Chain (Move env e) w (onRequest env body result w).2 (onRequest env body result w).1 := by
  by_cases accepted : ∃ json tx, Accepts env w body json tx
  · obtain ⟨json, tx, h⟩ := accepted
    rw [onRequest_of_accepts env h]
    have count : Move env e w [] w.counted :=
      .recount env ((Counters.bump_queue _ _).trans (Counters.bump_queue _ _))
    have accepts : Accepts env w.counted body json tx := ⟨h.room, h.valid, h.real⟩
    exact ((forward_moves env event accepts).append
      (.single (.reply env _ _))).after_silent count
  · have none_accepted : ∀ json tx, ¬ Accepts env w body json tx :=
      fun json tx h => accepted ⟨json, tx, h⟩
    obtain ⟨counters, resp, queue, eq⟩ := onRequest_of_not_accepts env none_accepted result
    rw [eq]
    exact (Chain.single (Move.reply env _ resp)).after_silent (.recount env queue)

theorem onResponse_moves {w : Worker} {i : Nat} {code : Int} {result : SendResult}
    (event : e = .call (.response i code result)) :
    Chain (Move env e) w (onResponse env i code result w).2
      (onResponse env i code result w).1 := by
  unfold onResponse
  cases flying : w.inFlight[i]? with
  | none => exact .nil w
  | some req =>
    by_cases failed : code ≠ 200
    · by_cases young : req.generation < env.config.httpPostRetries.toNat
      · simp only [if_pos failed, if_pos young]
        rcases (w.land i).send_cases .resend req.id (some req) result with
          ⟨req', generation, same, rfl, sent⟩ | lost
        · cases same
          rw [Worker.land] at sent
          rw [sent]
          exact .single (.resent event flying failed young)
        · rw [Worker.land] at lost
          rw [lost]
          exact (Chain.pair (Move.resendLost event flying failed young)
            (Move.logErr env _ clientError) :)
      · simp only [if_pos failed, if_neg young]
        exact .single (.parked event flying failed (Nat.le_of_not_lt young))
    · simp only [if_neg failed]
      obtain rfl := not_not.mp failed
      exact .single (.acknowledged event flying)

/-- One turn of the loop is the move of the queue's first. -/
theorem offer_moves {results : Nat → SendResult} (event : e = .call (.outQueue results)) (i : Nat)
    (req : Request) (rest : List Request) (w : Worker) (acts : List Action) :
    ∃ new, (offer results i req (w, acts)).2 = acts ++ new ∧
      Chain (Move env e) { w with outQueue := req :: rest } new
        { (offer results i req (w, acts)).1 with outQueue := rest } := by
  simp only [offer]
  rcases w.send_cases .outQueue req.id (some req) (results i) with
    ⟨req', generation, same, -, sent⟩ | lost
  · cases same
    rw [sent]
    exact ⟨_, rfl, .single (Move.offered (w := { w with outQueue := req :: rest }) event rfl)⟩
  · rw [lost]
    refine ⟨[.send .outQueue req.id (some req) .refused, .logErr clientError], ?_, ?_⟩
    · rfl
    · exact (Chain.pair (Move.offerLost (w := { w with outQueue := req :: rest }) event rfl)
        (Move.logErr env _ clientError) :)

theorem timerOutQueue_moves {w : Worker} {results : Nat → SendResult}
    (event : e = .call (.outQueue results)) :
    Chain (Move env e) w (timerOutQueue results w).2 (timerOutQueue results w).1 := by
  unfold timerOutQueue
  by_cases empty : w.outQueue = []
  · rw [if_pos empty]
    exact .nil w
  · rw [if_neg empty]
    -- between two turns, the queue is the part of it that still waits
    refine @PopLoop.run_keeps _ _ 200 (offer results)
      (fun s queue => Chain (Move env e) w s.2 { s.1 with outQueue := queue })
      ?_ 0 w.outQueue (w, []) (.nil w)
    rintro i req rest ⟨w', acts⟩ before
    obtain ⟨new, emitted, turn⟩ := offer_moves env event i req rest w' acts
    rw [emitted]
    exact before.append turn

/-- **Every step is a chain of moves**, with the actions it emits. -/
theorem step_moves (w : Worker) (e : Event) :
    Chain (Move env e) w ((worker env).step w e).2 ((worker env).step w e).1 := by
  cases e with
  | call c =>
    cases c with
    | request body result => exact onRequest_moves env rfl
    | response i code result => exact onResponse_moves env rfl
    | outQueue results => exact timerOutQueue_moves env rfl
  | updateCounters =>
    show Chain (Move env _) w (timerUpdateCounters w).2 (timerUpdateCounters w).1
    unfold timerUpdateCounters
    by_cases moved : w.counters.total ≠ 0
    · rw [if_pos moved]
      refine .single (.aside (clearCounters_queue _) rfl rfl rfl ?_)
      intro a ha
      rcases List.mem_pair.mp ha with rfl | rfl <;> trivial
    · rw [if_neg moved]
      exact .single (.emit env _ (a := .store w.backlog) trivial)

end PeerNode
