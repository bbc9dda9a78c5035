import PeerNode.Moves

/-!
# The out queue

Requests without retries left are parked, and a timer offers them to the client again. Two
things are proved of the timer's callback and one of the queue.

The callback's loop reads its bound off the queue it pops (`PopLoop`), so one tick offers
`served 200 n` of the `n` parked requests: the first ones, in order and each once. That is
not the `min 200 n` the bound seems to name, and `full_batch_iff` says when the two agree.

The queue is first-in first-out over every run, and nothing starves in it: what is offered
and what still waits is what was parked, in that order, and the `m`-th of the queue goes out
within `m / 200 + 8` ticks, whatever is parked behind it meanwhile.
-/

namespace PeerNode

open Mealy

variable {TX : Type} (env : Env TX)

/-! ## What is offered and what is parked -/

def Action.offered? : Action → Option Request
  | .send .outQueue _ (some req) _ => some req
  | _ => none

def Action.parked? : Action → Option Request
  | .park req => some req
  | _ => none

/-- An offer the client took. -/
def Action.taken : Action → Bool
  | .send .outQueue _ _ (.accepted _) => true
  | _ => false

/-- The requests offered by out-queue ticks, in order. -/
def offers (tr : List Action) : List Request := tr.filterMap Action.offered?

/-- The requests parked, in order. -/
def parkings (tr : List Action) : List Request := tr.filterMap Action.parked?

@[simp] theorem offers_nil : offers [] = [] := rfl

@[simp] theorem offers_append (tr acts : List Action) :
    offers (tr ++ acts) = offers tr ++ offers acts := List.filterMap_append

@[simp] theorem parkings_append (tr acts : List Action) :
    parkings (tr ++ acts) = parkings tr ++ parkings acts := List.filterMap_append

theorem offers_aside {acts : List Action} (h : ∀ a ∈ acts, a.aside) : offers acts = [] := by
  apply filterMap_aside _ h
  intro a aside
  cases a <;> first | rfl | exact aside.elim

theorem parkings_aside {acts : List Action} (h : ∀ a ∈ acts, a.aside) : parkings acts = [] := by
  apply filterMap_aside _ h
  intro a aside
  cases a <;> first | rfl | exact aside.elim

/-! ## One tick -/

/-- One offer: the request, taken or not. -/
theorem offer_spec (results : Nat → SendResult) (i : Nat) (req : Request) (w : Worker)
    (acts : List Action) :
    ∃ w' new, offer results i req (w, acts) = (w', acts ++ new) ∧ offers new = [req] ∧
      w'.outQueue = w.outQueue ∧
      w'.counters.queue = w.counters.queue + new.countP Action.taken := by
  simp only [offer]
  rcases w.send_cases .outQueue req.id (some req) (results i) with
    ⟨req', generation, same, -, sent⟩ | lost
  · cases same
    rw [sent]
    exact ⟨_, [_], rfl, rfl, rfl, rfl⟩
  · rw [lost]
    exact ⟨_, [_, _], rfl, rfl, rfl, (Int.add_zero _).symm⟩

/-- Offers of a list of requests: all of them, in order. -/
theorem passes_offer (results : Nat → SendResult) (i : Nat) (l : List Request) (w : Worker)
    (acts : List Action) :
    ∃ w' new, PopLoop.passes (offer results) i l (w, acts) = (w', acts ++ new) ∧
      offers new = l ∧
      w'.counters.queue = w.counters.queue + new.countP Action.taken := by
  induction l generalizing i w acts with
  | nil => exact ⟨w, [], by rw [PopLoop.passes, List.append_nil], rfl, (Int.add_zero _).symm⟩
  | cons req l ih =>
    obtain ⟨w₁, new₁, one, offered₁, -, queue₁⟩ := offer_spec results i req w acts
    obtain ⟨w₂, new₂, rest, offered₂, queue₂⟩ := ih (i + 1) w₁ (acts ++ new₁)
    refine ⟨w₂, new₁ ++ new₂, ?_, ?_, ?_⟩
    · rw [PopLoop.passes, one, rest, List.append_assoc]
    · rw [offers_append, offered₁, offered₂, List.singleton_append]
    · rw [queue₂, queue₁, List.countP_append, Int.natCast_add, Int.add_assoc]

/-- **One tick**: it offers the first `served 200 n` parked requests, in order and each once,
leaves the others in order, and counts those that were taken. -/
theorem timerOutQueue_spec (results : Nat → SendResult) (w : Worker) :
    offers (timerOutQueue results w).2
        = w.outQueue.take (PopLoop.served 200 w.outQueue.length) ∧
      (timerOutQueue results w).1.outQueue
        = w.outQueue.drop (PopLoop.served 200 w.outQueue.length) ∧
      (timerOutQueue results w).1.counters.queue
        = w.counters.queue + (timerOutQueue results w).2.countP Action.taken := by
  by_cases empty : w.outQueue = []
  · simp [timerOutQueue, empty]
  · obtain ⟨w', new, passed, offered, queue⟩ := passes_offer results 0
      (w.outQueue.take (PopLoop.served 200 w.outQueue.length)) w []
    have tick : timerOutQueue results w =
        ({ w' with outQueue := w.outQueue.drop (PopLoop.served 200 w.outQueue.length) }, new) := by
      rw [timerOutQueue, if_neg empty, PopLoop.run_eq, passed]
      rfl
    rw [tick]
    exact ⟨offered, rfl, queue⟩

/-- A tick handles a full batch: the first `min 200 n` of `n` parked requests are offered, the
rest stays, and the counter grows by the offers that were taken. -/
def FullBatch (results : Nat → SendResult) (w : Worker) : Prop :=
  offers (timerOutQueue results w).2 = w.outQueue.take (min 200 w.outQueue.length) ∧
  (timerOutQueue results w).1.outQueue = w.outQueue.drop (min 200 w.outQueue.length) ∧
  (timerOutQueue results w).1.counters.queue
    = w.counters.queue + (timerOutQueue results w).2.countP Action.taken

/-- **When a tick handles a full batch**: when nothing or one request is parked, or at least
399 are. In between the loop stops half way. -/
theorem full_batch_iff (results : Nat → SendResult) (w : Worker) :
    FullBatch results w ↔ w.outQueue.length ≤ 1 ∨ 399 ≤ w.outQueue.length := by
  obtain ⟨offered, rest, queue⟩ := timerOutQueue_spec results w
  have batch : PopLoop.served 200 w.outQueue.length = min 200 w.outQueue.length ↔
      w.outQueue.length ≤ 1 ∨ 399 ≤ w.outQueue.length := by
    rw [PopLoop.served_eq_min_iff (Nat.zero_lt_succ 199)]
    omega
  rw [← batch]
  constructor
  · rintro ⟨full, -, -⟩
    have lengths := congrArg List.length (offered.symm.trans full)
    have le := PopLoop.served_le 200 w.outQueue.length
    rw [List.length_take, List.length_take] at lengths
    omega
  · intro same
    rw [same] at offered rest
    exact ⟨offered, rest, queue⟩

/-- Of two parked requests a tick offers one. -/
theorem half_batch_of_two :
    ¬ ∀ (results : Nat → SendResult) (w : Worker), FullBatch results w := by
  intro always
  let req : Request := ⟨0, 1, .post, {}, "", []⟩
  have full := always (fun _ => .refused) { outQueue := [req, { req with id := 1 }] }
  revert full
  unfold FullBatch
  decide

/-! ## First in, first out -/

/-- **The queue over a run**, from any worker: what is offered, then what still waits, is what
waited at the start, then what was parked. -/
theorem fifo (w : Worker) (es : List Event) :
    offers ((worker env).trace w es) ++ ((worker env).state w es).outQueue
      = w.outQueue ++ parkings ((worker env).trace w es) := by
  refine (worker env).invariant_of_chain
    (fun w' tr => offers tr ++ w'.outQueue = w.outQueue ++ parkings tr)
    (step_moves env) ?_ ?_ es
  · exact (List.append_nil _).symm
  · intro e w₁ w₂ acts tr move hinv
    rw [offers_append, parkings_append, ← List.append_assoc, ← hinv]
    cases move with
    | aside _ outQueue _ _ acts_aside =>
      rw [offers_aside acts_aside, parkings_aside acts_aside, outQueue]
      simp only [List.append_nil]
    | @parked _ req code _ _ flying _ _ =>
      show offers tr ++ [] ++ (w₁.outQueue ++ [req]) = _
      rw [List.append_nil, ← List.append_assoc]
      rfl
    | @offered req rest generation _ _ first =>
      rw [first]
      show offers tr ++ [req] ++ rest = offers tr ++ req :: rest ++ []
      rw [List.append_nil, List.append_assoc, List.singleton_append]
    | @offerLost req rest _ _ first =>
      rw [first]
      show offers tr ++ [req] ++ rest = offers tr ++ req :: rest ++ []
      rw [List.append_nil, List.append_assoc, List.singleton_append]
    | _ =>
      show offers tr ++ [] ++ w₁.outQueue = offers tr ++ w₁.outQueue ++ []
      rw [List.append_nil, List.append_nil]

/-! ## Nothing starves -/

/-- The out-queue ticks of a run. -/
def ticks : List Event → Nat
  | [] => 0
  | .call (.outQueue _) :: es => ticks es + 1
  | _ :: es => ticks es

/-- The first `m` of the queue that one step leaves waiting are no more than a tick over just
them would leave, if it is a tick. -/
theorem waiting_after_step (w : Worker) (e : Event) {m : Nat} (h : m ≤ w.outQueue.length) :
    m - (offers ((worker env).step w e).2).length ≤ (PopLoop.left 200)^[ticks [e]] m := by
  match e with
  | .call (.outQueue results) =>
    show m - (offers (timerOutQueue results w).2).length ≤ PopLoop.left 200 m
    rw [(timerOutQueue_spec results w).1, List.length_take,
      Nat.min_eq_left (PopLoop.served_le 200 _)]
    exact PopLoop.sub_served_le_left 200 h
  | .call (.request _ _) => exact Nat.sub_le _ _
  | .call (.response _ _ _) => exact Nat.sub_le _ _
  | .updateCounters => exact Nat.sub_le _ _

theorem ticks_cons (e : Event) (es : List Event) : ticks (e :: es) = ticks es + ticks [e] := by
  match e with
  | .call (.outQueue _) => rfl
  | .call (.request _ _) => rfl
  | .call (.response _ _ _) => rfl
  | .updateCounters => rfl

/-- Over a run, every tick leaves no more of the first `m` than a tick over just them. -/
theorem waiting_after_run (w : Worker) (es : List Event) {m : Nat} (h : m ≤ w.outQueue.length) :
    m - (offers ((worker env).trace w es)).length ≤ (PopLoop.left 200)^[ticks es] m := by
  induction es generalizing w m with
  | nil => exact Nat.sub_le _ _
  | cons e es ih =>
    have step := waiting_after_step env w e h
    have queue := congrArg List.length (fifo env w [e])
    simp only [Machine.trace_cons, Machine.trace_nil, Machine.state_cons, Machine.state_nil,
      List.append_nil, List.length_append] at queue
    have rest := ih ((worker env).step w e).1
      (m := m - (offers ((worker env).step w e).2).length) (by omega)
    rw [Machine.trace_cons, offers_append, List.length_append, ← Nat.sub_sub, ticks_cons,
      Function.iterate_add_apply]
    exact rest.trans ((PopLoop.left_mono 200).iterate (ticks es) step)

/-- Once they have all gone, further ticks leave none. -/
theorem left_iterate_eq_zero_of_le {m k : Nat} (h : m / 200 + 8 ≤ k) :
    (PopLoop.left 200)^[k] m = 0 := by
  have digits : Nat.size 200 = 8 := by decide
  obtain ⟨j, rfl⟩ := Nat.exists_eq_add_of_le h
  have gone := PopLoop.left_iterate_eq_zero (by decide : 0 < 200) m
  rw [digits] at gone
  rw [Nat.add_comm, Function.iterate_add_apply, gone]
  exact Function.iterate_fixed rfl j

/-- **Parked requests are served first-in first-out and none starves.** In every run, what was
offered and what still waits is what was parked, in order; and from every state reached, the
first `m` of the queue are what the next `m / 200 + 8` ticks offer first, whatever else happens
meanwhile. -/
theorem parked_served_in_order (es : List Event) :
    offers (done env es) ++ (after env es).outQueue = parkings (done env es) ∧
    ∀ m fs, 1 ≤ m → m ≤ (after env es).outQueue.length → m / 200 + 8 ≤ ticks fs →
      (after env es).outQueue.take m <+: offers ((worker env).trace (after env es) fs) := by
  refine ⟨fifo env {} es, ?_⟩
  intro m fs _ waits enough
  have gone := waiting_after_run env (after env es) fs waits
  rw [left_iterate_eq_zero_of_le enough, Nat.le_zero, Nat.sub_eq_zero_iff_le] at gone
  have order := congrArg (List.take m) (fifo env (after env es) fs)
  rw [List.take_append_of_le_length gone, List.take_append_of_le_length waits] at order
  rw [← order]
  exact List.take_prefix _ _

end PeerNode
