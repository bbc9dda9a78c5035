import PeerNode.Ledger

/-!
# Where a forwarded request comes from

Whatever the worker hands to the network began as a request a user sent: a body that reads as
a document, an `mhc_send` with every field it needs, a transaction that loads and verifies.
The user was told its hash, and the network is told the key's signature over the same bytes.
`Origin` is all of that, for one event of a run and one request to the network.

A request keeps its number and its bytes through any number of retries and parkings, and only
its generation changes. So what holds of a request when it is made, and says nothing of its
generation, holds of it wherever it is sent: `step_carries` is the step of that argument and
`every_send_has_an_origin` the run. The origin is one: the events that make requests number
them upwards.
-/

namespace PeerNode

open Mealy

variable {TX : Type} (env : Env TX)

/-! ## What the checks establish -/

/-- What a body that passes every check says. -/
structure Valid (body : String) (json : JsonRequest) (doc : Json) (tx : TX) : Prop where
  parsed : env.sniper.documentParse body = some doc
  envelope : json = JsonRequest.read env.sniper doc
  transaction : json.isTransaction = true
  complete : (JsonTransaction.parse env.sniper doc).1.complete = true
  loaded : env.sniper.loadHex (JsonTransaction.parse env.sniper doc).1.«to»
    (JsonTransaction.parse env.sniper doc).1.value (JsonTransaction.parse env.sniper doc).1.fee
    (JsonTransaction.parse env.sniper doc).1.nonce (JsonTransaction.parse env.sniper doc).1.data
    (JsonTransaction.parse env.sniper doc).1.pubkey
    (JsonTransaction.parse env.sniper doc).1.sign = some tx
  verified : env.sniper.verify tx = true

theorem check_eq_ok {strict : Bool} {req : JsonRequest} (h : req.check strict = .ok) :
    req.isTransaction = true := by
  unfold JsonRequest.check at h
  split at h
  · cases h
  · split at h
    · split at h <;> cases h
    · rename_i transaction
      simpa using transaction

theorem transaction_eq_ok {doc : Json} (h : (JsonTransaction.parse env.sniper doc).2 = .ok) :
    (JsonTransaction.parse env.sniper doc).1.complete = true := by
  unfold JsonTransaction.parse at h ⊢
  split at h
  · cases h
  · rename_i params
    simp only [if_neg params]
    by_contra incomplete
    simp only [if_neg incomplete] at h
    cases h

/-- The cascade lets a transaction through only if every check passes. -/
theorem validate_eq_ok {body : String} {json : JsonRequest} {tx : TX}
    (h : validate env body = (json, .ok tx)) : ∃ doc, Valid env body json doc tx := by
  unfold validate JsonRequest.parse at h
  by_cases empty : body = ""
  · simp [empty] at h
  · cases parsed : env.sniper.documentParse body with
    | none => simp [empty, parsed] at h
    | some doc =>
      by_cases checked : (JsonRequest.read env.sniper doc).check env.strict = .ok
      · by_cases complete : (JsonTransaction.parse env.sniper doc).2 = .ok
        · simp only [if_neg empty, parsed, checked, complete, ne_eq, not_true_eq_false,
            if_false] at h
          split at h
          · cases h
          · rename_i tx' loaded
            split at h
            · cases h
            · rename_i verified
              simp only [Prod.mk.injEq, Except.ok.injEq] at h
              obtain ⟨rfl, rfl⟩ := h
              exact ⟨doc, parsed, rfl, check_eq_ok checked, transaction_eq_ok env complete, loaded,
                by simpa using verified⟩
        · simp [empty, parsed, checked, complete] at h
      · simp [empty, parsed, checked] at h

/-- A request that is not a test is an `mhc_send`. -/
theorem Accepts.method {w : Worker} {body : String} {json : JsonRequest} {tx : TX}
    (h : Accepts env w body json tx) : json.method = "mhc_send" := by
  obtain ⟨doc, valid⟩ := validate_eq_ok env h.valid
  have transaction := valid.transaction
  have real := h.real
  unfold JsonRequest.isTransaction at transaction
  unfold JsonRequest.isTestRansaction at real
  rw [real, Bool.or_false] at transaction
  exact beq_iff_eq.mp transaction

/-! ## What holds of a request stays with it -/

/-- Whatever the worker has in its lists is a `Q`. -/
def Carries (Q : Request → Prop) (w : Worker) : Prop :=
  (∀ req ∈ w.inFlight, Q req) ∧ ∀ req ∈ w.outQueue, Q req

/-- Whatever is sent is a `Q`, under its own number. -/
def Hands (Q : Request → Prop) (acts : List Action) : Prop :=
  ∀ site id req result, .send site id (some req) result ∈ acts → req.id = id ∧ Q req

theorem Hands.append {Q : Request → Prop} {tr acts : List Action} (h : Hands Q tr)
    (k : Hands Q acts) : Hands Q (tr ++ acts) := by
  intro site id req result mem
  rcases List.mem_append.mp mem with before | now
  · exact h site id req result before
  · exact k site id req result now

theorem Hands.of_aside {Q : Request → Prop} {acts : List Action} (h : ∀ a ∈ acts, a.aside) :
    Hands Q acts :=
  fun _ _ _ _ mem => (h _ mem).elim

/-- Where a request is launched from makes no difference. -/
theorem Hands.send {Q : Request → Prop} {req : Request} (h : Q req) {id : Nat} (same : req.id = id)
    (site : Site) (result : SendResult) : Hands Q [.send site id (some req) result] := by
  intro site' id' req' result' mem
  cases List.mem_singleton.mp mem
  exact ⟨same, h⟩

section Carrying

variable {Q : Request → Prop} (stays : ∀ req generation, Q req → Q { req with generation })
include stays

theorem Carries.launch {w : Worker} (h : Carries Q w) {req : Request} (hq : Q req)
    (generation : Nat) : Carries Q (w.launch req generation) := by
  refine ⟨?_, h.2⟩
  intro r mem
  rcases List.mem_append.mp mem with before | now
  · exact h.1 r before
  · rw [List.mem_singleton.mp now]
    exact stays req generation hq

omit stays in
theorem Carries.land {w : Worker} (h : Carries Q w) (i : Nat) : Carries Q (w.land i) :=
  ⟨fun r mem => h.1 r (List.mem_of_mem_eraseIdx mem), h.2⟩

/-- A move that makes no request hands on what the worker carries. -/
theorem move_carries {e : Event} {w w' : Worker} {acts : List Action}
    (move : Move env e w acts w') (other : ∀ body result, e ≠ .call (.request body result))
    (h : Carries Q w) : Carries Q w' ∧ Hands Q acts := by
  cases move with
  | aside _ outQueue inFlight _ acts_aside =>
    refine ⟨?_, .of_aside acts_aside⟩
    unfold Carries
    rwa [outQueue, inFlight]
  | forwarded event => exact absurd event (other _ _)
  | forwardLost event => exact absurd event (other _ _)
  | acknowledged _ flying =>
    refine ⟨h.land _, ?_⟩
    simp [Hands]
  | @resent i req code generation _ flying _ _ =>
    have hq := h.1 req (List.mem_of_getElem? flying)
    refine ⟨(h.land i).launch stays hq generation, ?_⟩
    exact Hands.append (by simp [Hands] : Hands Q [.response req.id code]) (.send hq rfl _ _)
  | @resendLost i req code _ _ flying _ _ =>
    have hq := h.1 req (List.mem_of_getElem? flying)
    refine ⟨h.land i, ?_⟩
    exact Hands.append (by simp [Hands] : Hands Q [.response req.id code]) (.send hq rfl _ _)
  | @parked i req code _ _ flying _ _ =>
    have hq := h.1 req (List.mem_of_getElem? flying)
    refine ⟨⟨(h.land i).1, ?_⟩, by simp [Hands]⟩
    intro r mem
    rcases List.mem_append.mp mem with before | now
    · exact h.2 r before
    · rwa [List.mem_singleton.mp now]
  | @offered req rest generation _ _ first =>
    have hq := h.2 req (first ▸ List.mem_cons_self)
    have waiting : Carries Q { w with outQueue := rest } :=
      ⟨h.1, fun r mem => h.2 r (first ▸ List.mem_cons_of_mem req mem)⟩
    exact ⟨waiting.launch stays hq generation, .send hq rfl _ _⟩
  | @offerLost req rest _ _ first =>
    have hq := h.2 req (first ▸ List.mem_cons_self)
    exact ⟨⟨h.1, fun r mem => h.2 r (first ▸ List.mem_cons_of_mem req mem)⟩, .send hq rfl _ _⟩

/-- A forward hands over what it makes. -/
theorem forward_carries (tx : TX) (result : SendResult) {w : Worker} (h : Carries Q w)
    (made : ∀ req, makeHttpRequest env w.made (env.sniper.move tx) = some req → Q req) :
    Carries Q (forward env tx result w).1 ∧ Hands Q (forward env tx result w).2 := by
  simp only [forward]
  generalize request : makeHttpRequest env w.made (env.sniper.move tx) = req?
  rcases Worker.send_cases { w with made := w.made + 1 } .forward w.made req? result with
    ⟨req, generation, rfl, -, sent⟩ | lost
  · rw [sent]
    have hq := made req request
    exact ⟨Carries.launch stays (w := { w with made := w.made + 1 }) h hq generation,
      .send hq (makeHttpRequest_id env request) _ _⟩
  · rw [lost]
    refine ⟨h, ?_⟩
    cases req? with
    | none => simp [Hands]
    | some req =>
      exact Hands.append (.send (made req request) (makeHttpRequest_id env request) _ _)
        (by simp [Hands] : Hands Q [.logErr clientError])

/-- **The step of the argument**: if the request an event makes, if any, is a `Q`, and the worker
carries only `Q`s, it sends only `Q`s and carries only `Q`s afterwards. -/
theorem step_carries {w : Worker} {e : Event} (h : Carries Q w)
    (made : ∀ body result json tx req, e = .call (.request body result) →
      Accepts env w body json tx →
      makeHttpRequest env w.made (env.sniper.move tx) = some req → Q req) :
    Carries Q ((worker env).step w e).1 ∧ Hands Q ((worker env).step w e).2 := by
  by_cases request : ∃ body result, e = .call (.request body result)
  · obtain ⟨body, result, rfl⟩ := request
    show Carries Q (onRequest env body result w).1 ∧ Hands Q (onRequest env body result w).2
    by_cases accepted : ∃ json tx, Accepts env w body json tx
    · obtain ⟨json, tx, accepts⟩ := accepted
      have counted : Carries Q w.counted := h
      obtain ⟨carries, hands⟩ := forward_carries env stays tx result counted
        fun req => made body result json tx req rfl accepts
      rw [onRequest_of_accepts env accepts]
      exact ⟨carries, hands.append (by simp [Hands])⟩
    · obtain ⟨counters, resp, -, eq⟩ :=
        onRequest_of_not_accepts env (fun json tx a => accepted ⟨json, tx, a⟩) result
      rw [eq]
      exact ⟨h, by simp [Hands]⟩
  · have other : ∀ body result, e ≠ .call (.request body result) :=
      fun body result eq => request ⟨body, result, eq⟩
    refine (step_moves env w e).invariant (fun w' acts => Carries Q w' ∧ Hands Q acts) ?_
      ⟨h, fun _ _ _ _ mem => absurd mem List.not_mem_nil⟩
    rintro w₁ w₂ acts tr move ⟨carries, hands⟩
    obtain ⟨carries', hands'⟩ := move_carries env stays move other carries
    exact ⟨carries', hands.append hands'⟩

end Carrying

/-! ## Origins -/

/-- What is to be known of the incoming request that a request to the network comes from: what it
said, that it was let in, loaded and verified, and counted once; that its user got one reply, ok
with the hash of the very bytes; and that the network gets the key's signature over them. -/
structure Originates (w : Worker) (body : String) (result : SendResult) (req : Request)
    (doc : Json) (tx : TX) (sigDer : Bytes) : Prop where
  accepts : Accepts env w body (JsonRequest.read env.sniper doc) tx
  parsed : env.sniper.documentParse body = some doc
  method : (JsonRequest.read env.sniper doc).method = "mhc_send"
  to_ne : (JsonTransaction.parse env.sniper doc).1.«to» ≠ ""
  value_ne : (JsonTransaction.parse env.sniper doc).1.value ≠ ""
  nonce_ne : (JsonTransaction.parse env.sniper doc).1.nonce ≠ ""
  pubkey_ne : (JsonTransaction.parse env.sniper doc).1.pubkey ≠ ""
  sign_ne : (JsonTransaction.parse env.sniper doc).1.sign ≠ ""
  loaded : env.sniper.loadHex (JsonTransaction.parse env.sniper doc).1.«to»
    (JsonTransaction.parse env.sniper doc).1.value (JsonTransaction.parse env.sniper doc).1.fee
    (JsonTransaction.parse env.sniper doc).1.nonce (JsonTransaction.parse env.sniper doc).1.data
    (JsonTransaction.parse env.sniper doc).1.pubkey
    (JsonTransaction.parse env.sniper doc).1.sign = some tx
  verified : env.sniper.verify tx = true
  counted : ((worker env).step w (.call (.request body result))).1.counters.success
    = w.counters.success + 1
  answered : ∀ resp, .reply resp ∈ ((worker env).step w (.call (.request body result))).2 ↔
    resp =
      { code := 200
        data := some (makeOkJson env.sniper env.strict req.data (JsonRequest.read env.sniper doc))
        headers := [allowOrigin] }
  hash : Json.parse (makeOkJson env.sniper env.strict req.data
      (JsonRequest.read env.sniper doc)).toList
    = some (okReply env.strict (env.sniper.bin2hex (env.sniper.hashSha2562 req.data))
        (JsonRequest.read env.sniper doc).id)
  bytes : req.data = env.sniper.raw tx
  signed : env.key.sign req.data = some sigDer
  query : req.query
    = "pubk=" ++ env.key.hexPubkey ++ "&sign=" ++ env.sniper.bin2hexAppend sigDer
  number : req.id = w.made

/-- The `n`-th event of a run is the incoming request that `req` comes from. -/
def Origin (es : List Event) (n : Nat) (req : Request) : Prop :=
  ∃ body result doc tx sigDer, es[n]? = some (.call (.request body result)) ∧
    Originates env (after env (es.take n)) body result req doc tx sigDer

/-- A later event changes no origin. -/
theorem Origin.later {es : List Event} {n : Nat} {req : Request} (h : Origin env es n req)
    (fs : List Event) : Origin env (es ++ fs) n req := by
  obtain ⟨body, result, doc, tx, sigDer, event, facts⟩ := h
  obtain ⟨bound, -⟩ := List.getElem?_eq_some_iff.mp event
  refine ⟨body, result, doc, tx, sigDer, ?_, ?_⟩
  · rwa [List.getElem?_append_left bound]
  · rwa [List.take_append_of_le_length bound.le]

theorem complete_fields {t : JsonTransaction} (h : t.complete = true) :
    t.«to» ≠ "" ∧ t.value ≠ "" ∧ t.nonce ≠ "" ∧ t.pubkey ≠ "" ∧ t.sign ≠ "" := by
  unfold JsonTransaction.complete at h
  simpa [and_assoc] using h

/-- **What is made has an origin**, when `move` gives the bytes of `raw`. -/
theorem originates_of_accepts (moves : ∀ tx, env.sniper.move tx = env.sniper.raw tx) {w : Worker}
    {body : String} {json : JsonRequest} {tx : TX} {req : Request} (result : SendResult)
    (accepts : Accepts env w body json tx)
    (request : makeHttpRequest env w.made (env.sniper.move tx) = some req) :
    ∃ doc sigDer, Originates env w body result req doc tx sigDer := by
  obtain ⟨doc, valid⟩ := validate_eq_ok env accepts.valid
  obtain ⟨sigDer, signed, rfl⟩ := (makeHttpRequest_eq_some env).mp request
  obtain ⟨to_ne, value_ne, nonce_ne, pubkey_ne, sign_ne⟩ := complete_fields valid.complete
  obtain rfl := valid.envelope
  refine ⟨doc, sigDer, ?_⟩
  exact
    { accepts
      parsed := valid.parsed
      method := accepts.method env
      to_ne, value_ne, nonce_ne, pubkey_ne, sign_ne
      loaded := valid.loaded
      verified := valid.verified
      counted := by
        show (onRequest env body result w).1.counters.success = _
        rw [onRequest_of_accepts env accepts]
        exact forward_get env tx result w.counted .success
      answered := by
        intro resp
        show _ ∈ (onRequest env body result w).2 ↔ _
        rw [onRequest_of_accepts env accepts, List.mem_append, moves]
        simp [forward_no_reply, acceptedReply]
      hash := by rw [makeOkJson_eq, String.toList_ofList, Json.parse_render]
      bytes := moves tx
      signed
      query := rfl
      number := rfl }

/-- An origin is about a request's number, bytes and query, not about its generation. -/
theorem Origin.stays {es : List Event} {n : Nat} {req : Request} (h : Origin env es n req)
    (generation : Nat) : Origin env es n { req with generation } := by
  obtain ⟨body, result, doc, tx, sigDer, event, facts⟩ := h
  exact ⟨body, result, doc, tx, sigDer, event, { facts with }⟩

/-- One more event: the worker goes on carrying requests with an origin, and sends only such. -/
theorem origin_step (moves : ∀ tx, env.sniper.move tx = env.sniper.raw tx) (es : List Event)
    (e : Event) (h : Carries (fun req => ∃ n, Origin env es n req) (after env es)) :
    Carries (fun req => ∃ n, Origin env (es ++ [e]) n req) ((worker env).step (after env es) e).1 ∧
      Hands (fun req => ∃ n, Origin env (es ++ [e]) n req)
        ((worker env).step (after env es) e).2 := by
  have later : Carries (fun req => ∃ n, Origin env (es ++ [e]) n req) (after env es) := by
    refine ⟨?_, ?_⟩
    · intro req mem
      obtain ⟨n, origin⟩ := h.1 req mem
      exact ⟨n, origin.later env [e]⟩
    · intro req mem
      obtain ⟨n, origin⟩ := h.2 req mem
      exact ⟨n, origin.later env [e]⟩
  refine step_carries env (fun _ generation ⟨n, origin⟩ => ⟨n, origin.stays env generation⟩)
    later ?_
  rintro body result json tx req rfl accepts request
  obtain ⟨doc, sigDer, facts⟩ := originates_of_accepts env moves result accepts request
  refine ⟨es.length, body, result, doc, tx, sigDer, ?_, ?_⟩
  · rw [List.getElem?_append_right le_rfl, Nat.sub_self]
    rfl
  · rwa [List.take_append_of_le_length le_rfl, List.take_length]

/-- In every run the worker carries only requests with an origin. -/
theorem carries_origins (moves : ∀ tx, env.sniper.move tx = env.sniper.raw tx) (es : List Event) :
    Carries (fun req => ∃ n, Origin env es n req) (after env es) := by
  induction es using List.reverseRecOn with
  | nil =>
    exact ⟨fun _ mem => absurd mem List.not_mem_nil, fun _ mem => absurd mem List.not_mem_nil⟩
  | append_singleton es e ih =>
    rw [after_snoc]
    exact (origin_step env moves es e ih).1

/-! ## The origin is one -/

theorem made_le_step (w : Worker) (e : Event) : w.made ≤ ((worker env).step w e).1.made := by
  refine (step_moves env w e).preserves (fun w' => w.made ≤ w'.made) ?_ le_rfl
  intro w₁ w₂ acts move le
  cases move with
  | aside _ _ _ made _ => rwa [made]
  | forwarded => exact Nat.le_succ_of_le le
  | forwardLost => exact Nat.le_succ_of_le le
  | _ => exact le

theorem made_le_after (es fs : List Event) : (after env es).made ≤ (after env (es ++ fs)).made := by
  induction fs using List.reverseRecOn with
  | nil => rw [List.append_nil]
  | append_singleton fs e ih =>
    rw [← List.append_assoc, after_snoc]
    exact ih.trans (made_le_step env _ e)

/-- An earlier origin numbers its request below a later one's. -/
theorem Origin.number_lt {es : List Event} {n m : Nat} {req req' : Request}
    (h : Origin env es n req) (k : Origin env es m req') (lt : n < m) : req.id < req'.id := by
  obtain ⟨body, result, doc, tx, sigDer, event, facts⟩ := h
  obtain ⟨_, _, _, _, _, _, facts'⟩ := k
  have made : (after env (es.take (n + 1))).made = req.id + 1 := by
    rw [List.take_add_one, event, Option.toList_some, after_snoc, facts.number]
    show (onRequest env body result _).1.made = _
    rw [onRequest_of_accepts env facts.accepts, forward_made]
    rfl
  obtain ⟨fs, between⟩ : es.take (n + 1) <+: es.take m := List.take_prefix_take_left lt
  have le := made_le_after env (es.take (n + 1)) fs
  rw [between, made] at le
  rw [facts'.number]
  exact le

theorem Origin.unique {es : List Event} {n m : Nat} {req : Request} (h : Origin env es n req)
    (k : Origin env es m req) : n = m := by
  rcases Nat.lt_trichotomy n m with lt | same | gt
  · exact absurd (h.number_lt env k lt) (Nat.lt_irrefl _)
  · exact same
  · exact absurd (k.number_lt env h gt) (Nat.lt_irrefl _)

/-! ## Every send -/

/-- **Only verified real transactions reach the network, and the client is told their hash.**
Whatever a step of a run hands to the network, at any of the three places, comes from exactly one
incoming request, of that step or an earlier one; and no request but an accepted `mhc_send`
causes a send. -/
theorem every_send_has_an_origin (moves : ∀ tx, env.sniper.move tx = env.sniper.raw tx)
    (es : List Event) (e : Event) :
    (∀ site id req result,
      .send site id (some req) result ∈ ((worker env).step (after env es) e).2 →
        ∃! n, Origin env (es ++ [e]) n req) ∧
    ∀ body result, e = .call (.request body result) →
      (∀ json tx, ¬ (Accepts env (after env es) body json tx ∧ json.method = "mhc_send")) →
        ∀ site id req? answer,
          .send site id req? answer ∉ ((worker env).step (after env es) e).2 := by
  refine ⟨?_, ?_⟩
  · intro site id req result mem
    obtain ⟨-, n, origin⟩ :=
      (origin_step env moves es e (carries_origins env moves es)).2 site id req result mem
    exact ⟨n, origin, fun m other => other.unique env origin⟩
  · rintro body result rfl refused site id req? answer
    have none_accepted : ∀ json tx, ¬ Accepts env (after env es) body json tx :=
      fun json tx accepts => refused json tx ⟨accepts, accepts.method env⟩
    obtain ⟨counters, resp, -, eq⟩ := onRequest_of_not_accepts env none_accepted result
    show _ ∉ (onRequest env body result (after env es)).2
    rw [eq]
    simp

/-- What a tick offers after a resend and a parking comes from the first request. -/
theorem every_send_has_an_origin_offered :
    ∃! n, Origin (.plain resendsOnce) (parkedTwice ++ [offeredOnce]) n
      { id := 0, generation := 2, method := .post, domain := {}, query := "pubk=02&sign=30",
        data := [49] } := by
  refine (every_send_has_an_origin (.plain resendsOnce) (fun _ => rfl) parkedTwice
    offeredOnce).1 .outQueue 0 _ (.accepted 1) ?_
  rw [parkedTwice, after_append, after_plain (room_of_unlimited rfl _)]
  decide

end PeerNode
