import Mathlib.Data.Fintype.Basic
import Mathlib.Logic.Function.Basic
import PeerNode.Worker

/-!
# The process

`Proxy`, `Stats` and `main` together: the worker threads, the statistics thread and the main
one, over the counters they share. A step is one atomic operation, or one callback that
touches nothing shared, and the threads take steps in any order.

A worker's flush is the callback that is not one step. It stores the backlog and, if it has
counted anything, adds its counters to the shared ones, one atomic addition after the other,
and clears its own; the others may step in anywhere between. A thread inside a flush carries
the additions it still owes, each owed once, and the reason it began (`Thread`). The tick of
the statistics timer is six exchanges in the same way, and the main thread sums the stored
backlogs one load after the other.

`threads_run` says what the split costs a worker: nothing. Whatever the others do, its own
state is one it reaches alone, with the flush done at the moment it clears.

`Turned` lists what a turn may do, with its deeds and the place the thread was in, and
`step_turned` is the inversion. What is counted over a run is counted case by case there.
-/

namespace PeerNode

open Mealy

variable {TX : Type} (env : Env TX)

/-! ## Threads -/

/-- A worker thread: in its event loop, or in a flush with additions still to make. -/
inductive Thread
  | looping (w : Worker)
  | merging (w : Worker) (rest : List Field) (once : rest.Nodup) (counted : w.counters.total ≠ 0)

def Thread.worker : Thread → Worker
  | .looping w => w
  | .merging w _ _ _ => w

/-- The statistics thread: between ticks, or in one with counters still to take. -/
inductive StatsThread
  | idle
  | draining (rest : List Field) (report : Counters Int)

/-- The main thread: between ticks of `timer_queue_size`, or in `Proxy::queue_size`. -/
inductive MainThread
  | idle
  | summing (next : Nat) (size : Int)

/-- The process: `n` workers, what they store in `_queues`, the shared counters and the two
other threads. -/
structure Process (n : Nat) where
  threads : Fin n → Thread := fun _ => .looping {}
  queues : Fin n → Int := fun _ => 0
  globalCounters : GlobalCounters := .zero
  stats : StatsThread := .idle
  main : MainThread := .idle

/-- Who steps next. -/
inductive Turn (n : Nat)
  /-- A callback of the `i`-th worker that moves requests. -/
  | call (i : Fin n) (c : Callback)
  /-- Its `timer_update_counters` fires. -/
  | updateCounters (i : Fin n)
  /-- Its flush goes on: the next addition, or the clearing. -/
  | merge (i : Fin n)
  /-- `timer_stats` fires or goes on: the next exchange, or the post and what it answers. -/
  | stats (posted : Bool)
  /-- `timer_queue_size` fires or goes on: the next load, or the store. -/
  | queueSize

/-- What the process does that others can see. -/
inductive Deed (n : Nat)
  | worker (i : Fin n) (a : Action)
  /-- `_counters->f.exchange(0)` answered this. -/
  | drained (f : Field) (value : Int)
  /-- `http_client.post` of a report, and what it answered. -/
  | posted (report : Counters Int) (sent : Bool)

namespace Process

variable {n : Nat}

def setThread (s : Process n) (i : Fin n) (t : Thread) : Process n :=
  { s with threads := Function.update s.threads i t }

def setGlobal (s : Process n) (g : GlobalCounters) : Process n := { s with globalCounters := g }

def setQueue (s : Process n) (i : Fin n) (value : Int) : Process n :=
  { s with queues := Function.update s.queues i value }

/-- A callback runs when its loop is free. -/
def call (s : Process n) (i : Fin n) (c : Callback) : Process n × List (Deed n) :=
  match s.threads i with
  | .looping w =>
    let (w, acts) := PeerNode.call env w c
    (s.setThread i (.looping w), acts.map (.worker i))
  | .merging .. => (s, [])

/-- The start of `timer_update_counters`: the store and the look at `total`. -/
def updateCounters (s : Process n) (i : Fin n) : Process n × List (Deed n) :=
  match s.threads i with
  | .looping w =>
    let s := s.setQueue i w.backlog
    let stored := [Deed.worker i (.store w.backlog)]
    if counted : w.counters.total ≠ 0 then
      (s.setThread i (.merging w Field.all (by decide) counted), stored)
    else (s, stored)
  | .merging .. => (s, [])

/-- The rest of it, a step at a time: the additions of `merge_counters`, then
`clear_counters`. -/
def merge (s : Process n) (i : Fin n) : Process n × List (Deed n) :=
  match s.threads i with
  | .looping _ => (s, [])
  | .merging w (f :: rest) once counted =>
    ((s.setThread i (.merging w rest once.of_cons counted)).setGlobal
      (mergeField w.counters f s.globalCounters), [])
  | .merging w [] _ _ =>
    (s.setThread i (.looping { w with counters := clearCounters w.counters }),
      [.worker i (.merge w.counters)])

/-- `timer_stats`, a step at a time. The queue is read with the post, which follows it. -/
def statsTick (posted : Bool) (s : Process n) : Process n × List (Deed n) :=
  match s.stats with
  | .idle => ({ s with stats := .draining Field.all .zero }, [])
  | .draining (f :: rest) report =>
    ({ s.setGlobal (s.globalCounters.set f 0) with
        stats := .draining rest (report.set f (s.globalCounters.get f)) },
      [.drained f (s.globalCounters.get f)])
  | .draining [] report =>
    ({ s with stats := .idle },
      if env.config.statsSend then
        [.posted { report with queue := s.globalCounters.queue } posted]
      else [])

/-- `counters->queue = proxy.queue_size()`, a step at a time. -/
def queueSize (s : Process n) : Process n × List (Deed n) :=
  match s.main with
  | .idle => ({ s with main := .summing 0 0 }, [])
  | .summing next size =>
    if h : next < n then ({ s with main := .summing (next + 1) (size + s.queues ⟨next, h⟩) }, [])
    else ({ s.setGlobal { s.globalCounters with queue := size } with main := .idle }, [])

end Process

/-- The process as a machine. -/
def process (n : Nat) : Machine (Process n) (Turn n) (Deed n) where
  step
    | s, .call i c => s.call env i c
    | s, .updateCounters i => s.updateCounters i
    | s, .merge i => s.merge i
    | s, .stats posted => s.statsTick env posted
    | s, .queueSize => s.queueSize

namespace Process

variable {n : Nat}

@[simp] theorem setThread_same (s : Process n) (i : Fin n) (t : Thread) :
    (s.setThread i t).threads i = t := Function.update_self ..

theorem setThread_other (s : Process n) {i j : Fin n} (h : j ≠ i) (t : Thread) :
    (s.setThread i t).threads j = s.threads j := Function.update_of_ne h ..

@[simp] theorem setThread_setThread (s : Process n) (i : Fin n) (t t' : Thread) :
    (s.setThread i t).setThread i t' = s.setThread i t' := by
  simp only [setThread, Function.update_idem]

theorem setThread_self (s : Process n) {i : Fin n} {t : Thread} (h : s.threads i = t) :
    s.setThread i t = s := by
  rw [setThread, ← h, Function.update_eq_self]

@[simp] theorem setGlobal_threads (s : Process n) (g : GlobalCounters) :
    (s.setGlobal g).threads = s.threads := rfl

@[simp] theorem setGlobal_globalCounters (s : Process n) (g : GlobalCounters) :
    (s.setGlobal g).globalCounters = g := rfl

@[simp] theorem setQueue_threads (s : Process n) (i : Fin n) (value : Int) :
    (s.setQueue i value).threads = s.threads := rfl

@[simp] theorem setThread_globalCounters (s : Process n) (i : Fin n) (t : Thread) :
    (s.setThread i t).globalCounters = s.globalCounters := rfl

end Process

variable {n : Nat}

/-! ## What a turn may do -/

/-- What a turn may do to the process, and the deeds that go with it. -/
inductive Turned (s : Process n) : Turn n → List (Deed n) → Process n → Prop
  /-- The thread is in another place: a callback waits for its loop, a flush has nothing to do. -/
  | nothing {e : Turn n} (busy : ∀ i c w, e = .call i c → s.threads i ≠ .looping w) :
    Turned s e [] s
  | called {i : Fin n} {c : Callback} {w : Worker} (free : s.threads i = .looping w) :
    Turned s (.call i c) ((PeerNode.call env w c).2.map (.worker i))
      (s.setThread i (.looping (PeerNode.call env w c).1))
  /-- A tick of `timer_update_counters` that finds nothing counted. -/
  | stored {i : Fin n} {w : Worker} (free : s.threads i = .looping w) :
    Turned s (.updateCounters i) [.worker i (.store w.backlog)] (s.setQueue i w.backlog)
  /-- One that begins a flush. -/
  | begun {i : Fin n} {w : Worker} (free : s.threads i = .looping w)
    (once : Field.all.Nodup) (counted : w.counters.total ≠ 0) :
    Turned s (.updateCounters i) [.worker i (.store w.backlog)]
      ((s.setQueue i w.backlog).setThread i (.merging w Field.all once counted))
  /-- One addition of `merge_counters`. -/
  | added {i : Fin n} {w : Worker} {f : Field} {rest : List Field} {once : (f :: rest).Nodup}
    {counted : w.counters.total ≠ 0} (owes : s.threads i = .merging w (f :: rest) once counted) :
    Turned s (.merge i) []
      ((s.setThread i (.merging w rest once.of_cons counted)).setGlobal
        (mergeField w.counters f s.globalCounters))
  /-- `clear_counters`. -/
  | cleared {i : Fin n} {w : Worker} {once : ([] : List Field).Nodup}
    {counted : w.counters.total ≠ 0} (owes : s.threads i = .merging w [] once counted) :
    Turned s (.merge i) [.worker i (.merge w.counters)]
      (s.setThread i (.looping { w with counters := clearCounters w.counters }))
  /-- `timer_stats` fires. -/
  | ticked {posted : Bool} (idle : s.stats = .idle) :
    Turned s (.stats posted) [] { s with stats := .draining Field.all .zero }
  /-- One exchange. -/
  | exchanged {posted : Bool} {f : Field} {rest : List Field} {report : Counters Int}
    (draining : s.stats = .draining (f :: rest) report) :
    Turned s (.stats posted) [.drained f (s.globalCounters.get f)]
      { s.setGlobal (s.globalCounters.set f 0) with
        stats := .draining rest (report.set f (s.globalCounters.get f)) }
  /-- The report is full. It is posted, if reports are sent. -/
  | reported {posted : Bool} {report : Counters Int} (full : s.stats = .draining [] report) :
    Turned s (.stats posted)
      (if env.config.statsSend then
        [.posted { report with queue := s.globalCounters.queue } posted]
      else []) { s with stats := .idle }
  /-- A step of `queue_size`, which touches `queue` at most. -/
  | summed {s' : Process n} (threads : s'.threads = s.threads) (stats : s'.stats = s.stats)
    (counters : s'.globalCounters.get = s.globalCounters.get) : Turned s .queueSize [] s'

theorem call_turned (s : Process n) (i : Fin n) (c : Callback) :
    Turned env s (.call i c) (s.call env i c).2 (s.call env i c).1 := by
  unfold Process.call
  cases thread : s.threads i with
  | looping w => exact .called thread
  | merging =>
    refine .nothing ?_
    rintro i' c' w ⟨⟩ free
    rw [thread] at free
    cases free

theorem updateCounters_turned (s : Process n) (i : Fin n) :
    Turned env s (.updateCounters i) (s.updateCounters i).2 (s.updateCounters i).1 := by
  unfold Process.updateCounters
  cases thread : s.threads i with
  | merging => exact .nothing fun _ _ _ other => nomatch other
  | looping w =>
    by_cases counted : w.counters.total ≠ 0
    · simp only [dif_pos counted]
      exact .begun thread _ counted
    · simp only [dif_neg counted]
      exact .stored thread

theorem merge_turned (s : Process n) (i : Fin n) :
    Turned env s (.merge i) (s.merge i).2 (s.merge i).1 := by
  unfold Process.merge
  cases thread : s.threads i with
  | looping => exact .nothing fun _ _ _ other => nomatch other
  | merging w rest once counted =>
    cases rest with
    | nil => exact .cleared thread
    | cons f rest => exact .added thread

theorem statsTick_turned (s : Process n) (posted : Bool) :
    Turned env s (.stats posted) (s.statsTick env posted).2 (s.statsTick env posted).1 := by
  unfold Process.statsTick
  cases stats : s.stats with
  | idle => exact .ticked stats
  | draining rest report =>
    cases rest with
    | nil => exact .reported stats
    | cons f rest => exact .exchanged stats

theorem queueSize_turned (s : Process n) :
    Turned env s .queueSize s.queueSize.2 s.queueSize.1 := by
  unfold Process.queueSize
  cases s.main with
  | idle => exact .summed rfl rfl rfl
  | summing next size =>
    by_cases more : next < n
    · simp only [dif_pos more]
      exact .summed rfl rfl rfl
    · simp only [dif_neg more]
      refine .summed rfl rfl (funext ?_)
      intro f
      cases f <;> rfl

/-- **Every turn does one of these.** -/
theorem step_turned (s : Process n) (e : Turn n) :
    Turned env s e ((process env n).step s e).2 ((process env n).step s e).1 := by
  cases e with
  | call i c => exact call_turned env s i c
  | updateCounters i => exact updateCounters_turned env s i
  | merge i => exact merge_turned env s i
  | stats posted => exact statsTick_turned env s posted
  | queueSize => exact queueSize_turned env s

/-! ## A thread's worker runs as it would alone -/

/-- A worker goes through a turn as it was, through one of its callbacks, or through a flush as a
whole, which is when the flush is over. -/
theorem turned_worker {s s' : Process n} {e : Turn n} {deeds : List (Deed n)}
    (h : Turned env s e deeds s') (i : Fin n) :
    (s'.threads i).worker = (s.threads i).worker ∨
      (∃ c, e = .call i c ∧
        (s'.threads i).worker = (PeerNode.call env (s.threads i).worker c).1) ∨
      (e = .merge i ∧ (s'.threads i).worker = (timerUpdateCounters (s.threads i).worker).1) := by
  cases h with
  | @called j c w free =>
    by_cases same : i = j
    · subst same
      rw [Process.setThread_same, free]
      exact .inr (.inl ⟨c, rfl, rfl⟩)
    · exact .inl (congrArg Thread.worker (Process.setThread_other s same _))
  | @begun j w free once counted =>
    left
    by_cases same : i = j
    · subst same
      rw [Process.setThread_same, free]
      rfl
    · exact congrArg Thread.worker (Process.setThread_other (s.setQueue j w.backlog) same _)
  | @added j w f rest once counted owes =>
    left
    rw [Process.setGlobal_threads]
    by_cases same : i = j
    · subst same
      rw [Process.setThread_same, owes]
      rfl
    · exact congrArg Thread.worker (Process.setThread_other s same _)
  | @cleared j w once counted owes =>
    by_cases same : i = j
    · subst same
      rw [Process.setThread_same, owes]
      exact .inr (.inr ⟨rfl, (timerUpdateCounters_of_counted counted).symm⟩)
    · exact .inl (congrArg Thread.worker (Process.setThread_other s same _))
  | summed threads stats counters =>
    rw [threads]
    exact .inl rfl
  | _ => exact .inl rfl

/-- So a turn of the process is at most one event of each worker. -/
theorem turn_is_events (s : Process n) (e : Turn n) (i : Fin n) :
    ∃ ds, (((process env n).step s e).1.threads i).worker
      = (worker env).state (s.threads i).worker ds := by
  rcases turned_worker env (step_turned env s e) i with same | ⟨c, -, called⟩ | ⟨-, flushed⟩
  · exact ⟨[], same⟩
  · exact ⟨[.call c], called⟩
  · exact ⟨[.updateCounters], flushed⟩

/-- **Every thread's worker is in a state it reaches alone**, whatever the others do. -/
theorem threads_run (es : List (Turn n)) (i : Fin n) :
    ∃ ds, (((process env n).state {} es).threads i).worker = after env ds := by
  refine (process env n).simulates (N := worker env)
    (R := fun s w => (s.threads i).worker = w) ?_ es rfl
  rintro s w e rfl
  exact turn_is_events env s e i

/-! ## And it does what it would do alone -/

/-- What a deed is to the `i`-th worker. -/
def Deed.of? (i : Fin n) : Deed n → Option Action
  | .worker j a => if j = i then some a else none
  | _ => none

/-- What a thread has done of the flush it is in. -/
def Thread.begun : Thread → List Action
  | .looping _ => []
  | .merging w _ _ _ => [.store w.backlog]

theorem filterMap_of?_self (i : Fin n) (acts : List Action) :
    (acts.map (Deed.worker i)).filterMap (Deed.of? i) = acts := by
  rw [List.filterMap_map]
  refine (List.filterMap_congr ?_).trans List.filterMap_some
  intro a _
  exact if_pos rfl

theorem filterMap_of?_other {i j : Fin n} (h : i ≠ j) (acts : List Action) :
    (acts.map (Deed.worker j)).filterMap (Deed.of? i) = [] := by
  rw [List.filterMap_map, List.filterMap_eq_nil_iff]
  intro a _
  exact if_neg (Ne.symm h)

/-- What becomes of a worker, and what it does, in a turn: the events of it alone that the turn
stands for, but for the store of a flush, which is done when the flush begins. -/
def ActsAlone (s s' : Process n) (deeds : List (Deed n)) (i : Fin n) : Prop :=
  ∃ ds, (s'.threads i).worker = (worker env).state (s.threads i).worker ds ∧
    (s.threads i).begun ++ deeds.filterMap (Deed.of? i)
      = (worker env).trace (s.threads i).worker ds ++ (s'.threads i).begun

variable {env} {s s' : Process n} {deeds : List (Deed n)} {i : Fin n}

/-- A worker the turn is not about is left alone. -/
theorem ActsAlone.idle (same : s'.threads i = s.threads i)
    (silent : deeds.filterMap (Deed.of? i) = []) : ActsAlone env s s' deeds i :=
  ⟨[], by rw [same, Machine.state_nil], by rw [silent, same, List.append_nil]; rfl⟩

/-- A tick of `timer_update_counters` does all of it, or its store. -/
theorem updateCounters_actsAlone (s : Process n) (j : Fin n) :
    ActsAlone env s (s.updateCounters j).1 (s.updateCounters j).2 i := by
  unfold Process.updateCounters
  cases thread : s.threads j with
  | merging => exact .idle rfl rfl
  | looping w =>
    by_cases same : i = j
    · subst same
      have stored := filterMap_of?_self i [Action.store w.backlog]
      by_cases counted : w.counters.total ≠ 0
      · simp only [dif_pos counted]
        refine ⟨[], ?_, ?_⟩
        · rw [Process.setThread_same, thread]
          rfl
        · rw [Process.setThread_same, thread]
          exact stored
      · simp only [dif_neg counted]
        have flush : timerUpdateCounters w = (w, [.store w.backlog]) := by
          rw [timerUpdateCounters, if_neg counted]
        refine ⟨[.updateCounters], ?_, ?_⟩
        · rw [Process.setQueue_threads, thread]
          exact (congrArg Prod.fst flush).symm
        · rw [Process.setQueue_threads, thread]
          show _ = ((timerUpdateCounters w).2 ++ []) ++ []
          rw [flush]
          exact stored
    · have silent := filterMap_of?_other same [Action.store w.backlog]
      by_cases counted : w.counters.total ≠ 0
      · simp only [dif_pos counted]
        exact .idle (Process.setThread_other (s.setQueue j w.backlog) same _) silent
      · simp only [dif_neg counted]
        exact .idle rfl silent

theorem turned_actsAlone {e : Turn n} (h : Turned env s e deeds s')
    (other : ∀ j, e ≠ .updateCounters j) : ActsAlone env s s' deeds i := by
  cases h with
  | @called j c w free =>
    by_cases same : i = j
    · subst same
      refine ⟨[.call c], ?_, ?_⟩
      · rw [Process.setThread_same, free]
        rfl
      · rw [Process.setThread_same, free, filterMap_of?_self]
        simp [worker, Thread.begun, Thread.worker]
    · exact .idle (Process.setThread_other s same _) (filterMap_of?_other same _)
  | stored => exact absurd rfl (other _)
  | begun => exact absurd rfl (other _)
  | @added j w f rest once counted owes =>
    by_cases same : i = j
    · subst same
      refine ⟨[], ?_, ?_⟩
      · rw [Process.setGlobal_threads, Process.setThread_same, owes]
        rfl
      · rw [Process.setGlobal_threads, Process.setThread_same, owes]
        rfl
    · exact .idle (Process.setThread_other s same _) rfl
  | @cleared j w once counted owes =>
    by_cases same : i = j
    · subst same
      have flush : timerUpdateCounters w = ({ w with counters := clearCounters w.counters },
          [.store w.backlog, .merge w.counters]) := by
        rw [timerUpdateCounters, if_pos counted]
      have cleared := filterMap_of?_self i [Action.merge w.counters]
      refine ⟨[.updateCounters], ?_, ?_⟩
      · rw [Process.setThread_same, owes]
        exact (congrArg Prod.fst flush).symm
      · rw [Process.setThread_same, owes]
        show _ ++ _ = ((timerUpdateCounters w).2 ++ []) ++ []
        rw [flush]
        exact congrArg (_ :: ·) cleared
    · exact .idle (Process.setThread_other s same _)
        (filterMap_of?_other same [Action.merge w.counters])
  | reported full =>
    refine .idle rfl ?_
    split <;> rfl
  | summed threads stats counters => exact .idle (congrFun threads i) rfl
  | _ => exact .idle rfl rfl

variable (env)

/-- **Every worker's part in a run of the process is a run of it alone**: the state it is in, and
all it has done, save the store of a flush that is still under way. -/
theorem threads_act_alone (es : List (Turn n)) (i : Fin n) :
    ∃ ds, (((process env n).state {} es).threads i).worker = after env ds ∧
      ((process env n).trace {} es).filterMap (Deed.of? i)
        = done env ds ++ (((process env n).state {} es).threads i).begun := by
  refine (process env n).invariant (fun s tr => ∃ ds, (s.threads i).worker = after env ds ∧
    tr.filterMap (Deed.of? i) = done env ds ++ (s.threads i).begun) ⟨[], rfl, rfl⟩ ?_ es
  rintro s tr e ⟨ds, run, acts⟩
  obtain ⟨fs, moved, did⟩ : ActsAlone env s ((process env n).step s e).1
      ((process env n).step s e).2 i := by
    by_cases flush : ∃ j, e = .updateCounters j
    · obtain ⟨j, rfl⟩ := flush
      exact updateCounters_actsAlone s j
    · exact turned_actsAlone (step_turned env s e) fun j same => flush ⟨j, same⟩
  refine ⟨ds ++ fs, ?_, ?_⟩
  · rw [moved, run, after_append]
  · rw [List.filterMap_append, acts, List.append_assoc, did, run, done_append, List.append_assoc]

/-! ## Flushes nobody steps into -/

/-- A flush goes through the additions it owes, if nobody steps in. -/
theorem merge_additions (s : Process n) (i : Fin n) {w : Worker} {rest : List Field}
    {once : rest.Nodup} {counted : w.counters.total ≠ 0}
    (owes : s.threads i = .merging w rest once counted) :
    (process env n).state s (List.replicate rest.length (.merge i)) =
      (s.setThread i (.merging w [] List.nodup_nil counted)).setGlobal
        (rest.foldl (fun g f => mergeField w.counters f g) s.globalCounters) := by
  induction rest generalizing s with
  | nil => exact (Process.setThread_self s owes).symm
  | cons f rest ih =>
    have one : ((process env n).step s (.merge i)).1 =
        (s.setThread i (.merging w rest once.of_cons counted)).setGlobal
          (mergeField w.counters f s.globalCounters) := by
      show (s.merge i).1 = _
      rw [Process.merge, owes]
    have others := ih ((s.setThread i (.merging w rest once.of_cons counted)).setGlobal
      (mergeField w.counters f s.globalCounters)) (Process.setThread_same s i _)
    rw [List.length_cons, List.replicate_succ, Machine.state_cons, one, others, List.foldl_cons]
    show ((s.setThread i _).setThread i _).setGlobal _ = _
    rw [Process.setThread_setThread]
    rfl

/-- **A flush nobody steps into** is `timer_update_counters` with `merge_counters` as a whole. -/
theorem flush_alone (s : Process n) (i : Fin n) {w : Worker} (free : s.threads i = .looping w)
    (counted : w.counters.total ≠ 0) :
    (process env n).state s
        (.updateCounters i :: (List.replicate Field.all.length (.merge i) ++ [.merge i])) =
      ((s.setQueue i w.backlog).setThread i (.looping (timerUpdateCounters w).1)).setGlobal
        (mergeCounters w.counters s.globalCounters) := by
  have begun : ((process env n).step s (.updateCounters i)).1 =
      (s.setQueue i w.backlog).setThread i (.merging w Field.all (by decide) counted) := by
    show (s.updateCounters i).1 = _
    rw [Process.updateCounters, free]
    simp only [dif_pos counted]
  rw [Machine.state_cons, begun, Machine.state_append,
    merge_additions env _ i (Process.setThread_same _ i _), Process.setThread_setThread,
    timerUpdateCounters_of_counted counted, mergeCounters_eq_foldl]
  show (Process.merge _ i).1 = _
  rw [Process.merge, Process.setGlobal_threads, Process.setThread_same]
  show ((Process.setThread _ i _).setThread i _).setGlobal _ = _
  rw [Process.setThread_setThread]
  rfl

end PeerNode
