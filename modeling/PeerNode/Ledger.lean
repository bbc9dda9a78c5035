import PeerNode.Lib.Custody
import PeerNode.Moves

/-!
# The ledger of forwarded transactions

What the worker is for, said without lists: it takes custody of a transaction and hands it
from place to place until the network has it (`Place`, `Route`). The lists, the counter and
the trace are its bookkeeping, and the ledger says that the books are right: the counter is
the number of requests in flight, and every place holds what custody says it holds.

`run_ledger` is the refinement: every run of the worker, from any state whose books are
right, is answered by handovers of custody and leaves the books right. Both results about a
fresh worker read it off. `forwarding_ledger` is the ledger itself, and
`lost_iff_send_refused` says when a transaction whose user was told ok is lost: the worker
keeps no copy of what it hands to a send, so exactly when some send of it is refused.
-/

namespace PeerNode

open Mealy Custody

variable {TX : Type} (env : Env TX)

/-! ## Custody of a transaction -/

/-- Where a forwarded transaction can be. The last two are final. -/
inductive Place
  | flight
  | parked
  | acknowledged
  | dropped
deriving DecidableEq, Repr

/-- How it gets there. -/
inductive Route : Option Place → Place → Prop
  | sent : Route none .flight
  | unsent : Route none .dropped
  | again : Route (some .flight) .flight
  | answered : Route (some .flight) .acknowledged
  | shelved : Route (some .flight) .parked
  | abandoned : Route (some .flight) .dropped
  | offered : Route (some .parked) .flight
  | spurned : Route (some .parked) .dropped

/-! ## The books -/

/-- The network answered the request with a 200. -/
def Action.acknowledges (id : Nat) : Action → Bool
  | .response id' code => id' == id && code == 200
  | _ => false

/-- A send of the request was refused, or there was nothing to send. -/
def Action.drops (id : Nat) : Action → Bool
  | .send _ id' _ .refused => id' == id
  | _ => false

/-- How often a worker and what it did so far mention a request in a place. -/
def held (w : Worker) (tr : List Action) : Place → Nat → Nat
  | .flight, id => w.inFlight.countP (·.id == id)
  | .parked, id => w.outQueue.countP (·.id == id)
  | .acknowledged, id => tr.countP (·.acknowledges id)
  | .dropped, id => tr.countP (·.drops id)

/-- That a request is in a place, in the worker's own terms. -/
def Stands (w : Worker) (tr : List Action) : Place → Nat → Prop
  | .flight, id => ∃ req ∈ w.inFlight, req.id = id
  | .parked, id => ∃ req ∈ w.outQueue, req.id = id
  | .acknowledged, id => .response id 200 ∈ tr
  | .dropped, id => ∃ site req?, .send site id req? .refused ∈ tr

theorem acknowledges_iff (id : Nat) (a : Action) :
    a.acknowledges id = true ↔ a = .response id 200 := by
  cases a <;> simp [Action.acknowledges]

theorem drops_iff (id : Nat) (a : Action) :
    a.drops id = true ↔ ∃ site req?, a = .send site id req? .refused := by
  cases a with
  | send site id' req? result =>
    cases result <;> simp [Action.drops]
  | _ => simp [Action.drops]

theorem held_pos_iff (w : Worker) (tr : List Action) (p : Place) (id : Nat) :
    0 < held w tr p id ↔ Stands w tr p id := by
  cases p with
  | flight => simp only [held, Stands, List.countP_pos_iff, beq_iff_eq]
  | parked => simp only [held, Stands, List.countP_pos_iff, beq_iff_eq]
  | acknowledged =>
    simp only [held, Stands, List.countP_pos_iff, acknowledges_iff, exists_eq_right]
  | dropped =>
    simp only [held, Stands, List.countP_pos_iff, drops_iff]
    constructor
    · rintro ⟨a, ha, site, req?, rfl⟩
      exact ⟨site, req?, ha⟩
    · rintro ⟨site, req?, ha⟩
      exact ⟨_, ha, site, req?, rfl⟩

/-- The books are right about the whereabouts `loc`. -/
structure Ledger (w : Worker) (tr : List Action) (loc : Whereabouts Place Nat) : Prop where
  queue : w.counters.queue = w.inFlight.length
  entered : ∀ id, loc id = none ↔ w.made ≤ id
  tallies : Tallies (held w tr) loc

/-- The books are right, and custody got from `loc` to what they are about. -/
def BooksFrom (loc : Whereabouts Place Nat) (w : Worker) (tr : List Action) : Prop :=
  ∃ loc', Handovers Route loc loc' ∧ Ledger w tr loc'

/-! ## How the books change -/

/-- A request that comes down was counted in flight once more. -/
theorem countP_land {w : Worker} {i : Nat} {req : Request} (flying : w.inFlight[i]? = some req)
    (id : Nat) :
    w.inFlight.countP (·.id == id)
      = (w.inFlight.eraseIdx i).countP (·.id == id) + if req.id = id then 1 else 0 := by
  rw [← (w.land_perm flying).countP_eq, List.countP_cons]
  simp only [Worker.land_inFlight, beq_iff_eq]

theorem length_land {w : Worker} {i : Nat} {req : Request} (flying : w.inFlight[i]? = some req) :
    w.inFlight.length = (w.inFlight.eraseIdx i).length + 1 := by
  rw [← (w.land_perm flying).length_eq, List.length_cons, Worker.land_inFlight]

/-- What is about no request is in no book. -/
theorem held_aside {w w' : Worker} {acts : List Action} (outQueue : w'.outQueue = w.outQueue)
    (inFlight : w'.inFlight = w.inFlight) (h : ∀ a ∈ acts, a.aside) (tr : List Action) :
    held w' (tr ++ acts) = held w tr := by
  ext p id
  have unacknowledged : acts.countP (·.acknowledges id) = 0 := by
    apply countP_aside _ h
    intro a aside
    cases a <;> first | rfl | exact aside.elim
  have undropped : acts.countP (·.drops id) = 0 := by
    apply countP_aside _ h
    intro a aside
    cases a <;> first | rfl | exact aside.elim
  cases p with
  | flight => simp only [held, inFlight]
  | parked => simp only [held, outQueue]
  | acknowledged => simp only [held, List.countP_append, unacknowledged, Nat.add_zero]
  | dropped => simp only [held, List.countP_append, undropped, Nat.add_zero]

namespace Ledger

variable {w w' : Worker} {tr acts : List Action} {loc : Whereabouts Place Nat}

/-- A request mentioned in a list of the worker is where that list says. -/
theorem loc_of_mem_inFlight (h : Ledger w tr loc) {req : Request} (mem : req ∈ w.inFlight) :
    loc req.id = some .flight :=
  (h.tallies.pos_iff _ _).mp ((held_pos_iff w tr .flight req.id).mpr ⟨req, mem, rfl⟩)

theorem loc_of_mem_outQueue (h : Ledger w tr loc) {req : Request} (mem : req ∈ w.outQueue) :
    loc req.id = some .parked :=
  (h.tallies.pos_iff _ _).mp ((held_pos_iff w tr .parked req.id).mpr ⟨req, mem, rfl⟩)

/-- The requests that stay in flight are others than the one that comes down. -/
theorem others_fly (h : Ledger w tr loc) {i : Nat} {req : Request}
    (flying : w.inFlight[i]? = some req) :
    ∀ r ∈ w.inFlight.eraseIdx i, r ∈ w.inFlight ∧ r.id ≠ req.id := by
  intro r mem
  refine ⟨List.mem_of_mem_eraseIdx mem, ?_⟩
  intro same
  have once := h.tallies .flight req.id
  rw [if_pos (h.loc_of_mem_inFlight (List.mem_of_getElem? flying)), held, countP_land flying,
    if_pos rfl] at once
  have other : 0 < (w.inFlight.eraseIdx i).countP (·.id == req.id) :=
    List.countP_pos_iff.mpr ⟨r, mem, beq_iff_eq.mpr same⟩
  omega

/-- The requests that stay in the queue are others than its first. -/
theorem others_wait (h : Ledger w tr loc) {req : Request} {rest : List Request}
    (first : w.outQueue = req :: rest) : ∀ r ∈ rest, r ∈ w.outQueue ∧ r.id ≠ req.id := by
  intro r mem
  refine ⟨first ▸ List.mem_cons_of_mem req mem, ?_⟩
  intro same
  have once := h.tallies .parked req.id
  rw [if_pos (h.loc_of_mem_outQueue (first ▸ List.mem_cons_self)), held, first,
    List.countP_cons, if_pos (beq_iff_eq.mpr rfl)] at once
  have other : 0 < rest.countP (·.id == req.id) :=
    List.countP_pos_iff.mpr ⟨r, mem, beq_iff_eq.mpr same⟩
  omega

/-- What flies is not parked. -/
theorem flight_ne_parked (h : Ledger w tr loc) {r r' : Request} (flies : r ∈ w.inFlight)
    (waits : r' ∈ w.outQueue) : r.id ≠ r'.id := by
  intro same
  have here := h.loc_of_mem_inFlight flies
  rw [same, h.loc_of_mem_outQueue waits] at here
  cases here

/-- What was made has a number below the next. -/
theorem lt_made (h : Ledger w tr loc) {id : Nat} {p : Place} (here : loc id = some p) :
    id < w.made := by
  by_contra unmade
  rw [(h.entered id).mpr (Nat.le_of_not_lt unmade)] at here
  cases here

/-- **The books after a handover** of what has entered. -/
theorem handed (h : Ledger w tr loc) {t : Nat} {p q : Place} (here : loc t = some p)
    (route : Route (some p) q) (queue : w'.counters.queue = w'.inFlight.length)
    (made : w'.made = w.made)
    (moved : ∀ p' u, held w' (tr ++ acts) p' u + (if t = u ∧ p = p' then 1 else 0)
      = held w tr p' u + if t = u ∧ q = p' then 1 else 0) :
    BooksFrom loc w' (tr ++ acts) := by
  refine ⟨hand loc t q, .single ⟨here ▸ route⟩, queue, ?_, ?_⟩
  · intro id
    rw [made]
    by_cases same : id = t
    · subst same
      rw [hand_same, ← h.entered, here]
      exact iff_of_false (Option.some_ne_none q) (Option.some_ne_none p)
    · rw [hand_other loc same, h.entered]
  · apply h.tallies.handed
    simpa only [here, Option.some.injEq] using moved

/-- **The books after an entry**: what enters is the next number. -/
theorem enters (h : Ledger w tr loc) {q : Place} (route : Route none q)
    (queue : w'.counters.queue = w'.inFlight.length) (made : w'.made = w.made + 1)
    (moved : ∀ p u, held w' (tr ++ acts) p u
      = held w tr p u + if w.made = u ∧ q = p then 1 else 0) :
    BooksFrom loc w' (tr ++ acts) := by
  have next : loc w.made = none := (h.entered w.made).mpr le_rfl
  refine ⟨hand loc w.made q, .single ⟨next ▸ route⟩, queue, ?_, ?_⟩
  · intro id
    rw [made]
    by_cases same : id = w.made
    · subst same
      rw [hand_same]
      exact iff_of_false (Option.some_ne_none q) (Nat.not_succ_le_self _)
    · rw [hand_other loc same, h.entered]
      omega
  · apply h.tallies.handed
    simpa [next] using moved

end Ledger

/-! ## Every move -/

section Moves

-- a place is tallied by counting in the worker's lists or in its trace
attribute [local simp] held Action.acknowledges Action.drops List.countP_append
  List.countP_singleton

/-- **One move is a handover at most**, and leaves the books right. -/
theorem move_ledger {e : Event} {w w' : Worker} {acts tr : List Action}
    {loc : Whereabouts Place Nat} (move : Move env e w acts w') (h : Ledger w tr loc) :
    BooksFrom loc w' (tr ++ acts) := by
  cases move with
  | aside queue outQueue inFlight made acts_aside =>
    refine ⟨loc, .refl, ?_, ?_, ?_⟩
    · rw [queue, inFlight, h.queue]
    · rw [made]
      exact h.entered
    · rw [held_aside outQueue inFlight acts_aside]
      exact h.tallies
  | @forwarded _ _ _ req generation _ _ request =>
    have id_eq : req.id = w.made := makeHttpRequest_id env request
    apply h.enters .sent
    · simp [h.queue]
    · rfl
    · intro p u
      cases p <;> simp [id_eq]
  | forwardLost =>
    apply h.enters .unsent
    · exact h.queue
    · rfl
    · intro p u
      cases p <;> simp
  | @acknowledged i req _ _ flying =>
    have here := h.loc_of_mem_inFlight (List.mem_of_getElem? flying)
    apply h.handed here .answered
    · simp [h.queue, length_land flying]
    · rfl
    · intro p u
      cases p <;> simp [countP_land flying]
  | @resent i req code generation _ flying failed young =>
    have here := h.loc_of_mem_inFlight (List.mem_of_getElem? flying)
    apply h.handed here .again
    · simp [h.queue, length_land flying]
    · rfl
    · intro p u
      cases p <;> simp [failed, countP_land flying]
  | @resendLost i req code _ _ flying failed young =>
    have here := h.loc_of_mem_inFlight (List.mem_of_getElem? flying)
    apply h.handed here .abandoned
    · simp [h.queue, length_land flying]
    · rfl
    · intro p u
      cases p <;> simp [failed, countP_land flying]
  | @parked i req code _ _ flying failed old =>
    have here := h.loc_of_mem_inFlight (List.mem_of_getElem? flying)
    apply h.handed here .shelved
    · simp [h.queue, length_land flying]
    · rfl
    · intro p u
      cases p <;> simp [failed, countP_land flying]
  | @offered req rest generation _ _ first =>
    have here := h.loc_of_mem_outQueue (first ▸ List.mem_cons_self)
    apply h.handed here .offered
    · simp [h.queue]
    · rfl
    · intro p u
      cases p <;> simp [first, List.countP_cons]
  | @offerLost req rest _ _ first =>
    have here := h.loc_of_mem_outQueue (first ▸ List.mem_cons_self)
    apply h.handed here .spurned
    · exact h.queue
    · rfl
    · intro p u
      cases p <;> simp [first, List.countP_cons]

end Moves

/-! ## Over runs -/

/-- **The refinement**: a run is answered by handovers of custody and leaves the books right. -/
theorem run_ledger {w : Worker} {tr : List Action} {loc : Whereabouts Place Nat}
    (h : Ledger w tr loc) (es : List Event) :
    BooksFrom loc ((worker env).state w es) (tr ++ (worker env).trace w es) := by
  refine (worker env).keeps (BooksFrom loc) ?_ es ⟨loc, .refl, h⟩
  intro w' tr' e books
  refine (step_moves env w' e).invariant (BooksFrom loc) ?_ books
  rintro w₁ w₂ acts tr₁ move ⟨loc₁, before, books₁⟩
  obtain ⟨loc₂, after, books₂⟩ := move_ledger env move books₁
  exact ⟨loc₂, before.trans after, books₂⟩

/-- The books of a fresh worker are right: it has nothing. -/
theorem ledger_fresh : Ledger {} [] .empty where
  queue := rfl
  entered id := iff_of_true rfl (Nat.zero_le id)
  tallies p _ := by cases p <;> rfl

/-- The books of a fresh worker after any run, and what becomes of them as it goes on. -/
theorem after_ledger (es : List Event) : ∃ loc, Ledger (after env es) (done env es) loc := by
  obtain ⟨loc, -, books⟩ := run_ledger env ledger_fresh es
  exact ⟨loc, books⟩

theorem later_ledger {es : List Event} {loc : Whereabouts Place Nat}
    (books : Ledger (after env es) (done env es) loc) (fs : List Event) :
    BooksFrom loc (after env (es ++ fs)) (done env (es ++ fs)) := by
  rw [after_append, done_append]
  exact run_ledger env books fs

/-- A transaction that was accepted is inside from then on, under the number its request got. -/
theorem accepted_inside {pre : List Event} {body : String} {json : JsonRequest} {tx : TX}
    (h : Accepts env (after env pre) body json tx) (result : SendResult) (post : List Event) :
    ∃ loc, Ledger (after env (pre ++ .call (.request body result) :: post))
        (done env (pre ++ .call (.request body result) :: post)) loc ∧
      loc (after env pre).made ≠ none := by
  obtain ⟨loc₀, books₀⟩ := after_ledger env pre
  obtain ⟨loc₁, -, books₁⟩ := later_ledger env books₀ [.call (.request body result)]
  obtain ⟨loc₂, later, books₂⟩ := later_ledger env books₁ post
  have entered : loc₁ (after env pre).made ≠ none := by
    rw [Ne, books₁.entered, after_append]
    show ¬ (onRequest env body result (after env pre)).1.made ≤ _
    rw [onRequest_of_accepts env h, forward_made]
    exact Nat.not_succ_le_self _
  rw [List.append_assoc] at books₂
  exact ⟨loc₂, books₂, later.inside entered⟩

/-- What the network has acknowledged, or a send has dropped, is nowhere else ever after. -/
theorem final_is_final {es : List Event} {p : Place} (final : ∀ q, ¬ Route (some p) q) {id : Nat}
    (h : Stands (after env es) (done env es) p id) (fs : List Event) (q : Place) :
    Stands (after env (es ++ fs)) (done env (es ++ fs)) q id ↔ q = p := by
  obtain ⟨loc, books⟩ := after_ledger env es
  obtain ⟨loc', later, books'⟩ := later_ledger env books fs
  have here : loc id = some p := (books.tallies.pos_iff p id).mp ((held_pos_iff _ _ p id).mpr h)
  rw [← held_pos_iff, books'.tallies.pos_iff, later.stays final here, Option.some.injEq, eq_comm]

/-! ## The ledger -/

/-- A flush stores one value. -/
theorem store_mem_flush (w : Worker) (value : Int) :
    .store value ∈ (timerUpdateCounters w).2 ↔ value = w.backlog := by
  unfold timerUpdateCounters
  by_cases moved : w.counters.total ≠ 0
  · simp [moved]
  · simp [moved]

/-- **The ledger of forwarded transactions.** After every run the counter is the number of
requests in flight, what a flush stores is that and the parked ones, and every transaction that
was accepted is in exactly one place. -/
theorem forwarding_ledger (es : List Event) :
    (after env es).counters.queue = (after env es).inFlight.length ∧
    0 ≤ (after env es).counters.queue ∧
    (∀ value : Int, .store value ∈ ((worker env).step (after env es) .updateCounters).2 ↔
      value = (after env es).inFlight.length + (after env es).outQueue.length) ∧
    ∀ pre body result post json tx, es = pre ++ .call (.request body result) :: post →
      Accepts env (after env pre) body json tx →
        ∃! place, Stands (after env es) (done env es) place (after env pre).made := by
  obtain ⟨loc, books⟩ := after_ledger env es
  refine ⟨books.queue, ?_, ?_, ?_⟩
  · rw [books.queue]
    exact Int.natCast_nonneg _
  · intro value
    rw [← books.queue]
    exact store_mem_flush (after env es) value
  · rintro pre body result post json tx rfl h
    obtain ⟨loc', books', inside⟩ := accepted_inside env h result post
    simp only [← held_pos_iff]
    exact (books'.tallies.existsUnique_iff _).mpr inside

/-- After all its travels the transaction is in exactly one place. -/
theorem forwarding_ledger_travelled :
    ∃! place, Stands (after (.plain resendsOnce) travelled) (done (.plain resendsOnce) travelled)
      place 0 :=
  (forwarding_ledger (.plain resendsOnce) travelled).2.2.2
    [] plainSend (.accepted 1) _ _ _ rfl (plain_accepts (room_of_unlimited rfl _))

/-- **When a transaction is lost.** Its user was told ok, it was counted as a success, and from
then on it is in flight, parked or acknowledged, in every state, as long as no send of it is
refused; after that it is in none of them. -/
theorem lost_iff_send_refused (pre : List Event) {body : String} {json : JsonRequest} {tx : TX}
    (h : Accepts env (after env pre) body json tx) (result : SendResult) (post : List Event) :
    let w := after env (pre ++ .call (.request body result) :: post)
    let tr := done env (pre ++ .call (.request body result) :: post)
    let id := (after env pre).made
    .reply (acceptedReply env json tx)
        ∈ ((worker env).step (after env pre) (.call (.request body result))).2 ∧
      (((worker env).step (after env pre) (.call (.request body result))).1.counters.success
        = (after env pre).counters.success + 1) ∧
      (((∃ req ∈ w.inFlight, req.id = id) ∨ (∃ req ∈ w.outQueue, req.id = id) ∨
          .response id 200 ∈ tr) ↔
        ∀ site req?, .send site id req? .refused ∉ tr) := by
  intro w tr id
  obtain ⟨loc, books, inside⟩ := accepted_inside env h result post
  have place : ∀ p, Stands w tr p id ↔ loc id = some p := fun p =>
    (held_pos_iff w tr p id).symm.trans (books.tallies.pos_iff p id)
  refine ⟨?_, ?_, ?_⟩
  · show _ ∈ (onRequest env body result (after env pre)).2
    rw [onRequest_of_accepts env h]
    exact List.mem_append_right _ (List.mem_singleton_self _)
  · show (onRequest env body result (after env pre)).1.counters.success = _
    rw [onRequest_of_accepts env h]
    exact forward_get env tx result (after env pre).counted .success
  · have flight := place .flight
    have parked := place .parked
    have acknowledged := place .acknowledged
    have dropped := place .dropped
    simp only [Stands] at flight parked acknowledged dropped
    obtain ⟨p, here⟩ := Option.ne_none_iff_exists'.mp inside
    have alive : (loc id = some .flight ∨ loc id = some .parked ∨ loc id = some .acknowledged) ↔
        ¬ loc id = some .dropped := by
      rw [here]
      cases p <;> decide
    rw [flight, parked, acknowledged, alive, ← dropped]
    simp only [not_exists]

/-- A send that was refused. -/
def Action.refused : Action → Bool
  | .send _ _ _ .refused => true
  | _ => false

/-- None of the three sends of `travelled` is. -/
theorem travelled_unrefused :
    ∀ a ∈ done (.plain resendsOnce) travelled, a.refused = false := by
  have room : ¬ tooMany (.plain resendsOnce) {} := room_of_unlimited rfl {}
  rw [travelled, parkedTwice, List.append_assoc, done_append, done_plain room, after_plain room]
  decide

/-- So its transaction is where it should be. -/
theorem lost_iff_send_refused_travelled :
    (∃ req ∈ (after (.plain resendsOnce) travelled).inFlight, req.id = 0) ∨
    (∃ req ∈ (after (.plain resendsOnce) travelled).outQueue, req.id = 0) ∨
    .response 0 200 ∈ done (.plain resendsOnce) travelled := by
  refine (lost_iff_send_refused (.plain resendsOnce) [] (plain_accepts (room_of_unlimited rfl _))
    (.accepted 1) (travelled.drop 1)).2.2.mpr ?_
  intro site req? mem
  exact Bool.noConfusion (travelled_unrefused _ mem)

/-- A user may be told ok and the transaction be in none of the three places: the first send of
this one was refused. -/
theorem ok_reply_does_not_keep :
    ¬ ∀ (TX : Type) (env : Env TX) (pre post : List Event) (body : String) (result : SendResult)
      (json : JsonRequest) (tx : TX), Accepts env (after env pre) body json tx →
        (∃ req ∈ (after env (pre ++ .call (.request body result) :: post)).inFlight,
          req.id = (after env pre).made) ∨
        (∃ req ∈ (after env (pre ++ .call (.request body result) :: post)).outQueue,
          req.id = (after env pre).made) ∨
        .response (after env pre).made 200
          ∈ done env (pre ++ .call (.request body result) :: post) := by
  intro always
  have room : ¬ tooMany (.plain {}) {} := room_of_unlimited rfl {}
  have kept := always Bytes (.plain {}) [] [] plainSend .refused _ _ (plain_accepts room)
  rw [List.nil_append, after_plain room, done_plain room] at kept
  simp [forward, makeHttpRequest, sign, Env.plain, Key.plain, Worker.send, Worker.counted,
    Worker.count] at kept

end PeerNode
