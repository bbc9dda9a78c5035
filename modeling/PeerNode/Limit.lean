import PeerNode.Ledger

/-!
# The limit of the send queue

`core.queue_size` is the maximum size of the send queue. The admission check reads the
backlog, in flight and parked, before it lets a request in, and asks whether it is past the
limit: a worker whose backlog is at the limit lets one more in. The load of a worker is what
that backlog should be, counted off the lists.

Only an admission makes the load grow, and by one (`load_of_admits`, `load_of_not_admits`):
retries, parkings and offers move requests, and a refused send drops one. So the limit holds
in a run exactly as long as no such transaction comes at the limit (`limit_respected_iff`), and
whatever does, the load is never more than one past it (`load_le`).
-/

namespace PeerNode

open Mealy

variable {TX : Type} (env : Env TX)

/-- The requests in flight and those parked. -/
def Worker.load (w : Worker) : Nat := w.inFlight.length + w.outQueue.length

/-- The event brings a transaction that is accepted, signed and sent. -/
def Admits (w : Worker) (e : Event) : Prop :=
  ∃ body generation json tx, e = .call (.request body (.accepted generation)) ∧
    Accepts env w body json tx ∧ env.key.sign (env.sniper.move tx) ≠ none

/-- The same of the event alone: it brings a transaction that is forwarded if there is room. -/
def Brings (e : Event) : Prop :=
  ∃ body generation json tx, e = .call (.request body (.accepted generation)) ∧
    validate env body = (json, .ok tx) ∧ json.isTestRansaction = false ∧
    env.key.sign (env.sniper.move tx) ≠ none

/-- What is admitted is what is brought while there is room. -/
theorem admits_iff (w : Worker) (e : Event) :
    Admits env w e ↔ Brings env e ∧ ¬ tooMany env w := by
  constructor
  · rintro ⟨body, generation, json, tx, event, accepts, signed⟩
    exact ⟨⟨body, generation, json, tx, event, accepts.valid, accepts.real, signed⟩, accepts.room⟩
  · rintro ⟨⟨body, generation, json, tx, event, valid, real, signed⟩, room⟩
    exact ⟨body, generation, json, tx, event, ⟨room, valid, real⟩, signed⟩

namespace Worker

@[simp] theorem load_addQueue (w : Worker) (d : Int) : (w.addQueue d).load = w.load := rfl

@[simp] theorem load_launch (w : Worker) (req : Request) (generation : Nat) :
    (w.launch req generation).load = w.load + 1 := by
  rw [load, launch_inFlight, launch_outQueue, List.length_append, List.length_singleton, load]
  omega

theorem load_land {w : Worker} {i : Nat} {req : Request} (flying : w.inFlight[i]? = some req) :
    w.load = (w.land i).load + 1 := by
  rw [load, length_land flying, load, land_inFlight, land_outQueue]
  omega

end Worker

/-! ## What a step does to the load -/

/-- No move but a forward adds to the load. -/
theorem load_move {e : Event} {w w' : Worker} {acts : List Action} (move : Move env e w acts w')
    (other : ∀ body result, e ≠ .call (.request body result)) : w'.load ≤ w.load := by
  cases move with
  | aside _ outQueue inFlight _ _ => rw [Worker.load, outQueue, inFlight, Worker.load]
  | forwarded event => exact absurd event (other _ _)
  | forwardLost => exact le_rfl
  | acknowledged _ flying =>
    rw [Worker.load_addQueue, Worker.load_land flying]
    exact Nat.le_succ _
  | resent _ flying => rw [Worker.load_launch, Worker.load_land flying]
  | resendLost _ flying =>
    rw [Worker.load_addQueue, Worker.load_land flying]
    exact Nat.le_succ _
  | parked _ flying =>
    rw [Worker.load_addQueue, Worker.load_land flying]
    simp [Worker.load, Nat.add_assoc]
  | @offered req rest _ _ _ first =>
    rw [Worker.load_addQueue, Worker.load_launch]
    simp [Worker.load, first, Nat.add_assoc]
  | offerLost _ first => simp [Worker.load, first]

theorem load_step_other (w : Worker) {e : Event}
    (other : ∀ body result, e ≠ .call (.request body result)) :
    ((worker env).step w e).1.load ≤ w.load :=
  (step_moves env w e).preserves (fun w' => w'.load ≤ w.load)
    (fun move le => (load_move env move other).trans le) le_rfl

/-- A forward adds one if it is signed and its send accepted. -/
theorem forward_load (tx : TX) (result : SendResult) (w : Worker) :
    (forward env tx result w).1.load = w.load + 1 ∧ result ≠ .refused ∧
        env.key.sign (env.sniper.move tx) ≠ none ∨
      (forward env tx result w).1.load = w.load ∧
        (result = .refused ∨ env.key.sign (env.sniper.move tx) = none) := by
  cases signed : env.key.sign (env.sniper.move tx) with
  | none =>
    have unmade : makeHttpRequest env w.made (env.sniper.move tx) = none := by
      simp [makeHttpRequest, sign, signed]
    refine .inr ⟨?_, .inr rfl⟩
    simp [forward, unmade, Worker.send, Worker.load]
  | some sigDer =>
    obtain ⟨req, made⟩ : ∃ req, makeHttpRequest env w.made (env.sniper.move tx) = some req :=
      ⟨_, (makeHttpRequest_eq_some env).mpr ⟨sigDer, signed, rfl⟩⟩
    cases result with
    | refused =>
      refine .inr ⟨?_, .inl rfl⟩
      simp [forward, made, Worker.send, Worker.load]
    | accepted generation =>
      refine .inl ⟨?_, by simp, by simp⟩
      simp [forward, made, Worker.send, Worker.load]
      omega

/-- **An admission adds one to the load.** -/
theorem load_of_admits {w : Worker} {e : Event} (h : Admits env w e) :
    ((worker env).step w e).1.load = w.load + 1 := by
  obtain ⟨body, generation, json, tx, rfl, accepts, signed⟩ := h
  show (onRequest env body (.accepted generation) w).1.load = _
  rw [onRequest_of_accepts env accepts]
  rcases forward_load env tx (.accepted generation) w.counted with ⟨grown, -, -⟩ | ⟨-, lost⟩
  · exact grown
  · rcases lost with refused | unsigned
    · cases refused
    · exact absurd unsigned signed

/-- **Nothing else adds to it.** -/
theorem load_of_not_admits {w : Worker} {e : Event} (h : ¬ Admits env w e) :
    ((worker env).step w e).1.load ≤ w.load := by
  by_cases request : ∃ body result, e = .call (.request body result)
  · obtain ⟨body, result, rfl⟩ := request
    show (onRequest env body result w).1.load ≤ _
    by_cases accepted : ∃ json tx, Accepts env w body json tx
    · obtain ⟨json, tx, accepts⟩ := accepted
      rw [onRequest_of_accepts env accepts]
      rcases forward_load env tx result w.counted with ⟨-, sent, signed⟩ | ⟨same, -⟩
      · cases result with
        | refused => exact absurd rfl sent
        | accepted generation => exact absurd ⟨body, generation, json, tx, rfl, accepts, signed⟩ h
      · exact same.le
    · obtain ⟨counters, resp, -, eq⟩ :=
        onRequest_of_not_accepts env (fun json tx a => accepted ⟨json, tx, a⟩) result
      rw [eq]
      exact le_rfl
  · exact load_step_other env w fun body result eq => request ⟨body, result, eq⟩

/-- In a state a run reaches, the backlog the check reads is the load. -/
theorem backlog_eq_load (es : List Event) :
    (after env es).backlog = ((after env es).load : Int) := by
  obtain ⟨loc, books⟩ := after_ledger env es
  rw [Worker.backlog, books.queue, Worker.load, Int.natCast_add]

/-! ## The limit -/

/-- There is room as long as the load is at most the limit: at the limit too. -/
theorem room_iff (limit : 0 < env.config.threadQueueSize) (es : List Event) :
    ¬ tooMany env (after env es) ↔ ((after env es).load : Int) ≤ env.config.threadQueueSize := by
  rw [← backlog_eq_load, Worker.backlog, tooMany]
  omega

/-- What is let in finds the load at most at the limit. -/
theorem load_le_of_admits (limit : 0 < env.config.threadQueueSize) {es : List Event} {e : Event}
    (h : Admits env (after env es) e) :
    ((after env es).load : Int) ≤ env.config.threadQueueSize :=
  (room_iff env limit es).mp ((admits_iff env _ e).mp h).2

/-- **The load is never more than one past the limit.** -/
theorem load_le (limit : 0 < env.config.threadQueueSize) (es : List Event) :
    ((after env es).load : Int) ≤ env.config.threadQueueSize + 1 := by
  induction es using List.reverseRecOn with
  | nil =>
    show (0 : Int) ≤ _
    omega
  | append_singleton es e ih =>
    rw [after_snoc]
    by_cases admits : Admits env (after env es) e
    · have before := load_le_of_admits env limit admits
      rw [load_of_admits env admits]
      omega
    · have step := load_of_not_admits env admits
      omega

/-- **When the limit is respected**: the load is at most the limit in every state of a run, if
and only if no transaction that would be forwarded comes in a state whose load is the limit. -/
theorem limit_respected_iff (limit : 0 < env.config.threadQueueSize) (es : List Event) :
    (∀ pre, pre <+: es → ((after env pre).load : Int) ≤ env.config.threadQueueSize) ↔
      ∀ pre e post, es = pre ++ e :: post → Brings env e →
        ((after env pre).load : Int) ≠ env.config.threadQueueSize := by
  constructor
  · rintro respected pre e post rfl brings full
    have admits := (admits_iff env _ e).mpr ⟨brings, (room_iff env limit pre).mpr full.le⟩
    have past := respected (pre ++ [e]) ⟨post, by simp⟩
    rw [after_snoc, load_of_admits env admits] at past
    omega
  · intro spared pre
    induction pre using List.reverseRecOn with
    | nil =>
      intro _
      show (0 : Int) ≤ _
      omega
    | append_singleton pre e ih =>
      rintro ⟨post, rfl⟩
      have before := ih ⟨e :: post, by simp⟩
      rw [after_snoc]
      by_cases admits : Admits env (after env pre) e
      · have room := spared pre e post (by simp) ((admits_iff env _ e).mp admits).1
        rw [load_of_admits env admits]
        omega
      · have step := load_of_not_admits env admits
        omega

/-- A worker with the limit one, which a first transaction does not break. -/
theorem limit_respected_iff_plain :
    ((after (.plain { threadQueueSize := 1 })
      [.call (.request plainSend (.accepted 1))]).load : Int) ≤ 1 := by
  refine (limit_respected_iff (.plain { threadQueueSize := 1 }) (by decide)
    [.call (.request plainSend (.accepted 1))]).mpr ?_ _ List.prefix_rfl
  intro pre e post split _
  rcases List.singleton_eq_append_iff.mp split with ⟨rfl, -⟩ | ⟨-, nothing⟩
  · decide
  · cases nothing

/-- The second transaction finds the load at the limit and is let in. -/
theorem limit_overshot :
    ¬ ∀ (TX : Type) (env : Env TX) (es : List Event), 0 < env.config.threadQueueSize →
      ((after env es).load : Int) ≤ env.config.threadQueueSize := by
  intro always
  let env : Env Bytes := .plain { threadQueueSize := 1 }
  let e : Event := .call (.request plainSend (.accepted 1))
  have first : ((after env [e]).load : Int) = 1 := by
    rw [after_plain (by decide)]
    rfl
  have room : ¬ tooMany env (after env [e]) := by
    rw [after_plain (by decide)]
    decide
  have second : (after env ([e] ++ [e])).load = (after env [e]).load + 1 := by
    rw [after_snoc]
    exact load_of_admits env ⟨plainSend, 1, _, _, rfl, plain_accepts room, by decide⟩
  have bounded := always Bytes env ([e] ++ [e]) (by decide)
  rw [second, Int.natCast_add, first] at bounded
  revert bounded
  decide

end PeerNode
