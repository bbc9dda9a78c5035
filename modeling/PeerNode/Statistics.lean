import Mathlib.Algebra.BigOperators.Group.Finset.Basic
import Mathlib.Algebra.Ring.Int.Defs
import Mathlib.Data.Fintype.Basic
import PeerNode.Moves
import PeerNode.Process

/-!
# The statistics add up

Every request a worker takes moves its own counters: `total`, and if it is let in the one
counter its outcome calls for (`onRequest_get`). From there a count goes to the shared
counters in a flush and out of them in a tick of the statistics timer, one atomic operation
at a time, with the other threads in between.

Nothing is lost and nothing counted twice, because every operation moves a count from one
place to the next and leaves their sum alone: what was drained, what is shared, and what each
worker still owes. A worker in its loop owes all it has counted. One in a flush owes the
counters it has not added yet, and not the ones it has, although they are still in its record.
-/

namespace PeerNode

open Mealy

variable {TX : Type} (env : Env TX)

/-! ## What a request counts -/

/-- The counter an error moves. -/
def errorField : ErrorCode → Field
  | .unsupportedMethod => .inv
  | .unsupportedParamsType => .noReq
  | .noRequiredParams => .noReq
  | .invalidTransaction => .inv
  | .verificationFailed => .invSign
  | _ => .trash

theorem processErrorCode_counters (json : JsonRequest) (ec : ErrorCode) (c : LocalCounters) :
    (processErrorCode env json ec c).2 = c.bump (errorField ec) := by
  cases ec <;> rfl

/-- The counter a request moves besides `total`, if it is let in. -/
def requestClass (w : Worker) (body : String) : Option Field :=
  if tooMany env w then none
  else
    match (validate env body).2 with
    | .ok _ => some .success
    | .error ec => some (errorField ec)

theorem requestClass_ne_total (w : Worker) (body : String) :
    requestClass env w body ≠ some .total := by
  unfold requestClass
  split
  · simp
  · split
    · simp
    · rename_i ec _
      cases ec <;> simp [errorField]

theorem count_get (w : Worker) (f g : Field) :
    (w.count f).counters.get g = w.counters.get g + if g = f then 1 else 0 :=
  Counters.get_bump w.counters f g

/-- **What a request counts**: itself, and once more by its outcome if it is let in. -/
theorem onRequest_get (w : Worker) (body : String) (result : SendResult) (f : Field) :
    (onRequest env body result w).1.counters.get f =
      w.counters.get f + (if f = .total then 1 else 0)
        + if requestClass env w body = some f then 1 else 0 := by
  have same : tooMany env (w.count .total) ↔ tooMany env w := Iff.rfl
  unfold onRequest handle requestClass
  by_cases room : tooMany env w
  · simp only [if_pos room, if_pos (same.mpr room), count_get]
    simp
  · simp only [if_neg room, if_neg (mt same.mp room)]
    cases validate env body with
    | mk json outcome =>
      cases outcome with
      | error ec =>
        simp only [processErrorCode_counters, Counters.get_bump, count_get, Option.some.injEq,
          eq_comm]
      | ok tx =>
        by_cases test : json.isTestRansaction = true
        · simp [test, count_get, @eq_comm _ f .success]
        · simp [test, count_get, @eq_comm _ f .success]

/-- So a counter moves by one or not at all. -/
theorem onRequest_get_cases (w : Worker) (body : String) (result : SendResult) (f : Field) :
    (onRequest env body result w).1.counters.get f = w.counters.get f + 1 ∨
      (onRequest env body result w).1.counters.get f = w.counters.get f := by
  rw [onRequest_get]
  by_cases total : f = .total
  · subst total
    rw [if_pos rfl, if_neg (requestClass_ne_total env w body)]
    exact .inl (Int.add_zero _)
  · rw [if_neg total, Int.add_zero]
    split
    · exact .inl rfl
    · exact .inr (Int.add_zero _)

/-! ## The other callbacks count nothing -/

theorem addQueue_get (w : Worker) (d : Int) (f : Field) :
    (w.addQueue d).counters.get f = w.counters.get f := by
  cases f <;> rfl

theorem send_counters (w : Worker) (site : Site) (id : Nat) (req? : Option Request)
    (result : SendResult) : (w.send site id req? result).1.counters = w.counters := by
  rcases w.send_cases site id req? result with ⟨_, _, _, _, sent⟩ | lost
  · rw [sent]
    rfl
  · rw [lost]

theorem onResponse_get (w : Worker) (i : Nat) (code : Int) (result : SendResult) (f : Field) :
    (onResponse env i code result w).1.counters.get f = w.counters.get f := by
  unfold onResponse
  split
  · rfl
  · rename_i req _
    have sends := send_counters { w with inFlight := w.inFlight.eraseIdx i } .resend req.id
      (some req) result
    dsimp only
    split
    · split
      · split
        · rw [sends]
        · rw [addQueue_get, sends]
      · rw [addQueue_get]
    · rw [addQueue_get]

theorem timerOutQueue_get (w : Worker) (results : Nat → SendResult) (f : Field) :
    (timerOutQueue results w).1.counters.get f = w.counters.get f := by
  unfold timerOutQueue
  split
  · rfl
  · refine @PopLoop.run_keeps _ _ 200 (offer results)
      (fun s _ => s.1.counters.get f = w.counters.get f) ?_ 0 w.outQueue (w, []) rfl
    rintro i req _ ⟨w', acts⟩ same
    have sends := send_counters w' .outQueue req.id (some req) (results i)
    simp only [offer]
    split
    · rw [addQueue_get, sends, same]
    · rw [sends, same]

/-! ## What is owed, what is drained, what is counted -/

/-- What a thread has counted and not added to the shared counter yet. -/
def Thread.pending (f : Field) : Thread → Int
  | .looping w => w.counters.get f
  | .merging w rest _ _ => if f ∈ rest then w.counters.get f else 0

@[simp] theorem pending_looping (f : Field) (w : Worker) :
    (Thread.looping w).pending f = w.counters.get f := rfl

@[simp] theorem pending_merging (f : Field) (w : Worker) (rest : List Field) (once : rest.Nodup)
    (counted : w.counters.total ≠ 0) :
    (Thread.merging w rest once counted).pending f = if f ∈ rest then w.counters.get f else 0 :=
  rfl

variable {n : Nat}

/-- What a deed drains of a counter. -/
def Deed.drains (f : Field) : Deed n → Int
  | .drained g value => if g = f then value else 0
  | _ => 0

/-- One if the turn is a request that increments the counter, else zero. -/
def increments (f : Field) (s : Process n) : Turn n → Int
  | .call i (.request body result) =>
    match s.threads i with
    | .looping w =>
      if (onRequest env body result w).1.counters.get f = w.counters.get f + 1 then 1 else 0
    | .merging .. => 0
  | _ => 0

/-- Where counts are kept: in the shared counter and with the threads. -/
def kept (f : Field) (s : Process n) : Int :=
  s.globalCounters.get f + ∑ i, (s.threads i).pending f

/-- A thread that changes changes what is added up over the threads by as much. -/
theorem sum_setThread (measure : Thread → Int) (s : Process n) (i : Fin n) (t : Thread) :
    ∑ j, measure ((s.setThread i t).threads j)
      = ∑ j, measure (s.threads j) + (measure t - measure (s.threads i)) := by
  have others : ∑ j ∈ Finset.univ.erase i, measure ((s.setThread i t).threads j)
      = ∑ j ∈ Finset.univ.erase i, measure (s.threads j) := by
    refine Finset.sum_congr rfl ?_
    intro j mem
    rw [Process.setThread_other s (Finset.ne_of_mem_erase mem)]
  rw [← Finset.add_sum_erase _ _ (Finset.mem_univ i), Process.setThread_same, others,
    ← Finset.add_sum_erase _ (fun j => measure (s.threads j)) (Finset.mem_univ i)]
  omega

theorem kept_setThread (f : Field) (s : Process n) (i : Fin n) (t : Thread) :
    kept f (s.setThread i t) = kept f s + (t.pending f - (s.threads i).pending f) := by
  rw [kept, kept, sum_setThread, Process.setThread_globalCounters]
  omega

/-- So does a shared counter. -/
theorem kept_setGlobal (f : Field) (s : Process n) (g : GlobalCounters) :
    kept f (s.setGlobal g) = kept f s + (g.get f - s.globalCounters.get f) := by
  rw [kept, kept, Process.setGlobal_threads, Process.setGlobal_globalCounters]
  omega

/-- What no worker does is not in what a worker does. -/
theorem sum_worker {out : Deed n → Int} (silent : ∀ i a, out (.worker i a) = 0) (i : Fin n)
    (acts : List Action) : ((acts.map (Deed.worker i)).map out).sum = 0 := by
  induction acts with
  | nil => rfl
  | cons a acts ih => rw [List.map_cons, List.map_cons, List.sum_cons, ih, silent, Int.add_zero]

/-! ## Every turn leaves the sum alone -/

/-- A callback adds what its request increments. -/
theorem call_get (f : Field) {s : Process n} {i : Fin n} {w : Worker}
    (free : s.threads i = .looping w) (c : Callback) :
    (PeerNode.call env w c).1.counters.get f
      = w.counters.get f + increments env f s (.call i c) := by
  cases c with
  | request body result =>
    simp only [increments, free, PeerNode.call]
    rcases onRequest_get_cases env w body result f with one | same
    · rw [if_pos one, one]
    · rw [same, if_neg (by omega), Int.add_zero]
  | response j code result => exact (onResponse_get env w j code result f).trans (Int.add_zero _).symm
  | outQueue results => exact (timerOutQueue_get w results f).trans (Int.add_zero _).symm

/-- An addition moves what is owed to the shared counter. -/
theorem added_balance (f : Field) (s : Process n) {i : Fin n} {w : Worker} {g : Field}
    {rest : List Field} {once : (g :: rest).Nodup} {counted : w.counters.total ≠ 0}
    (owes : s.threads i = .merging w (g :: rest) once counted) :
    kept f ((s.setThread i (.merging w rest once.of_cons counted)).setGlobal
        (mergeField w.counters g s.globalCounters)) = kept f s := by
  have new : g ∉ rest := (List.nodup_cons.mp once).1
  simp only [kept_setGlobal, kept_setThread, owes, pending_merging, get_mergeField,
    Process.setThread_globalCounters, List.mem_cons]
  by_cases same : f = g
  · subst same
    simp only [if_true, true_or, if_neg new]
    omega
  · simp only [same, if_false, false_or]
    omega

/-- An exchange moves the shared counter to what was drained. -/
theorem exchanged_balance (f g : Field) (s : Process n) :
    kept f (s.setGlobal (s.globalCounters.set g 0))
        + (if g = f then s.globalCounters.get g else 0) = kept f s := by
  have taken := kept_setGlobal f s (s.globalCounters.set g 0)
  by_cases same : g = f
  · subst same
    rw [Counters.get_set_same] at taken
    rw [taken, if_pos rfl]
    omega
  · rw [Counters.get_set_other _ (Ne.symm same)] at taken
    rw [taken, if_neg same]
    omega

/-- **Every turn leaves the sum alone**, but for what its request increments. -/
theorem turned_balance (f : Field) {s s' : Process n} {e : Turn n} {deeds : List (Deed n)}
    (h : Turned env s e deeds s') :
    kept f s' + (deeds.map (Deed.drains f)).sum = kept f s + increments env f s e := by
  cases h with
  | nothing busy =>
    have none : increments env f s e = 0 := by
      unfold increments
      split
      · next i body result =>
        cases thread : s.threads i with
        | looping w => exact absurd thread (busy i _ w rfl)
        | merging => rfl
      · rfl
    rw [none]
    rfl
  | called free =>
    rw [sum_worker (fun _ _ => rfl), kept_setThread, free, pending_looping, pending_looping,
      call_get env f free]
    omega
  | stored free => rfl
  | @begun i w free once counted =>
    have stored : kept f (s.setQueue i w.backlog) = kept f s := rfl
    rw [kept_setThread, stored, Process.setQueue_threads, free, pending_looping, pending_merging,
      if_pos (Field.mem_all f), Int.sub_self, Int.add_zero]
    rfl
  | added owes =>
    rw [added_balance f s owes]
    rfl
  | cleared owes =>
    rw [kept_setThread, owes, pending_looping, pending_merging, get_clearCounters,
      if_neg List.not_mem_nil, Int.sub_self, Int.add_zero]
    rfl
  | ticked idle => rfl
  | @exchanged posted g rest report draining =>
    rw [← exchanged_balance f g s]
    exact (Int.add_assoc ..).symm
  | reported full =>
    split <;> rfl
  | summed threads stats counters =>
    rw [kept, threads, counters]
    rfl

theorem turn_balance (f : Field) (s : Process n) (e : Turn n) :
    kept f ((process env n).step s e).1
        + (((process env n).step s e).2.map (Deed.drains f)).sum
      = kept f s + increments env f s e :=
  turned_balance env f (step_turned env s e)

/-! ## A flush and the queue -/

theorem timerUpdateCounters_queue (w : Worker) :
    (timerUpdateCounters w).1.counters.queue = w.counters.queue := by
  unfold timerUpdateCounters
  split
  · exact clearCounters_queue _
  · rfl

/-- A turn of a flush leaves the `queue` of every worker as it was. -/
theorem flush_queue (s : Process n) {e : Turn n} {i : Fin n}
    (flush : e = .updateCounters i ∨ e = .merge i) (j : Fin n) :
    (((process env n).step s e).1.threads j).worker.counters.queue
      = (s.threads j).worker.counters.queue := by
  rcases turned_worker env (step_turned env s e) j with same | ⟨c, called, -⟩ | ⟨-, flushed⟩
  · rw [same]
  · rcases flush with rfl | rfl <;> cases called
  · rw [flushed, timerUpdateCounters_queue]

/-! ## The accounting -/

/-- **No statistics update is lost or counted twice.** Over any interleaving, what the statistics
timer drained, what is shared and what the workers still owe add up to the requests that
incremented the counter; and no turn of a flush moves a worker's `queue`. -/
theorem no_update_lost_or_doubled (f : Field) (es : List (Turn n)) :
    (((process env n).trace {} es).map (Deed.drains f)).sum
        + ((process env n).state {} es).globalCounters.get f
        + ∑ i, (((process env n).state {} es).threads i).pending f
      = (process env n).income (increments env f) {} es ∧
    ∀ i j e, e = .updateCounters i ∨ e = .merge i →
      (((process env n).step ((process env n).state {} es) e).1.threads j).worker.counters.queue
        = (((process env n).state {} es).threads j).worker.counters.queue := by
  refine ⟨?_, ?_⟩
  · have balance := (process env n).balance (turn_balance env f) {} es
    have start : kept f ({} : Process n) = 0 := by
      simp [kept, Thread.pending]
    rw [start, Int.zero_add] at balance
    rw [← balance, kept]
    omega
  · intro i j e flush
    exact flush_queue env _ flush j

end PeerNode
