import PeerNode.QueueFigure

/-!
# The life of the process

From the constructors of `Proxy` and `Stats` to the end of `main`. Every thread makes its event
loop, runs it, and leaves it when its `timer_stop` finds `threads::Stop` set; a signal sets it
and makes the main thread leave its own loop, and the destructors then wait for the others, the
statistics thread first (`main.cpp`, `Proxy::~Proxy`, `Stats::~Stats`).

`break_loop` ends a loop after the callback that calls it, and whatever was due in the same round
still runs: a loop that is being left (`leaving`) takes turns as a running one does.

A program is a process with a place for every thread, and a turn of the process happens when the
loop it belongs to is there to take it. So a program's run is a run of the process with some turns
left out (`program_refines`), and what is proved of every run of the process is true of it. What is
new is how it ends: no flush and no report is cut short (`Orderly`), so that what was counted is
all accounted for at the end (`exit_account`).
-/

namespace PeerNode

open Mealy

variable {TX : Type} (env : Env TX) {n : Nat}

/-! ## The threads and their places -/

/-- The threads that `main` starts. -/
inductive Party (n : Nat)
  | worker (i : Fin n)
  | stats
deriving DecidableEq

/-- Where such a thread is: before its loop, in it, in its last round, or past it. -/
inductive Phase
  | starting
  | running
  | leaving
  | ended
deriving DecidableEq

/-- The loop takes callbacks. -/
def Phase.looping : Phase → Bool
  | .running | .leaving => true
  | .starting | .ended => false

/-- Where the main thread is: in its loop, in its last round, in `Stats::~Stats`, in
`Proxy::~Proxy` with the workers before `next` joined, or past the end of `main`. -/
inductive MainPhase
  | running
  | leaving
  | joiningStats
  | joining (next : Nat)
  | exited
deriving DecidableEq

def MainPhase.looping : MainPhase → Bool
  | .running | .leaving => true
  | _ => false

/-- A thread has been joined. -/
def MainPhase.Joined : MainPhase → Party n → Prop
  | .exited, _ => True
  | .joining _, .stats => True
  | .joining next, .worker i => i.val < next
  | _, _ => False

/-- A thread is between callbacks. -/
def Process.Free (s : Process n) : Party n → Prop
  | .worker i => ∃ w, s.threads i = .looping w
  | .stats => s.stats = .idle

instance (s : Process n) (p : Party n) : Decidable (s.Free p) :=
  match p with
  | .worker i =>
    match h : s.threads i with
    | .looping w => .isTrue ⟨w, h⟩
    | .merging .. => .isFalse fun ⟨_, free⟩ => nomatch h.symm.trans free
  | .stats =>
    match h : s.stats with
    | .idle => .isTrue h
    | .draining .. => .isFalse fun free => nomatch h.symm.trans free

/-- The main thread is between callbacks. -/
def MainThread.Idle (m : MainThread) : Prop := m = .idle

instance : (m : MainThread) → Decidable m.Idle
  | .idle => .isTrue rfl
  | .summing .. => .isFalse nofun

/-- Whose loop a turn belongs to: a thread's, or the main one. -/
def Turn.owner : Turn n → Option (Party n)
  | .call i _ | .updateCounters i | .merge i => some (.worker i)
  | .stats _ => some .stats
  | .queueSize => none

/-- The process, and where its threads are. `stopped` is `threads::Stop`. -/
structure Program (n : Nat) where
  process : Process n := {}
  phases : Party n → Phase := fun _ => .starting
  stopped : Bool := false
  main : MainPhase := .running

/-- What happens next. -/
inductive Moment (n : Nat)
  /-- `SIGINT` or `SIGTERM`, answered by `stop_signal` in the main loop. -/
  | signal
  /-- A thread makes its loop, and a worker binds its server; if that fails the thread logs it and
  ends. -/
  | opened (p : Party n) (ok : Bool)
  | turn (t : Turn n)
  /-- A thread's `timer_stop` fires. -/
  | stopTimer (p : Party n)
  /-- A thread's loop returns. -/
  | left (p : Party n)
  /-- The main thread goes on, from its loop or from a `join`. -/
  | main

namespace Program

def setPhase (s : Program n) (p : Party n) (phase : Phase) : Program n :=
  { s with phases := Function.update s.phases p phase }

/-- The loop that a turn belongs to takes it. -/
def takes (s : Program n) (t : Turn n) : Bool :=
  match t.owner with
  | some p => (s.phases p).looping
  | none => s.main.looping

/-- `stop_signal`. -/
def signal (s : Program n) : Program n :=
  if s.main.looping = true ∧ s.process.main.Idle then
    { s with stopped := true, main := .leaving }
  else s

/-- A thread's function, up to its loop. -/
def opened (s : Program n) (p : Party n) (ok : Bool) : Program n :=
  if s.phases p = .starting then s.setPhase p (if ok then .running else .ended) else s

/-- A turn of the process. -/
def turn (s : Program n) (t : Turn n) : Program n × List (Deed n) :=
  if s.takes t then
    ({ s with process := ((PeerNode.process env n).step s.process t).1 },
      ((PeerNode.process env n).step s.process t).2)
  else (s, [])

/-- `timer_stop` of a thread. -/
def stopTimer (s : Program n) (p : Party n) : Program n :=
  if s.phases p = .running ∧ s.process.Free p ∧ s.stopped = true then s.setPhase p .leaving else s

/-- A thread's function, from its loop to its end. -/
def left (s : Program n) (p : Party n) : Program n :=
  if s.phases p = .leaving ∧ s.process.Free p then s.setPhase p .ended else s

/-- The main thread past its loop: `~Stats`, then `~Proxy`, then the end. A `join` waits. -/
def goOn (s : Program n) : MainPhase :=
  match s.main with
  | .running => .running
  | .leaving => if s.process.main.Idle then .joiningStats else .leaving
  | .joiningStats => if s.phases .stats = .ended then .joining 0 else .joiningStats
  | .joining next =>
    if h : next < n then
      if s.phases (.worker ⟨next, h⟩) = .ended then .joining (next + 1) else .joining next
    else .exited
  | .exited => .exited

/-- The turn that takes place at a moment, if one does. -/
def taken (s : Program n) : Moment n → List (Turn n)
  | .turn t => if s.takes t then [t] else []
  | _ => []

end Program

/-- The program as a machine. -/
def program (n : Nat) : Machine (Program n) (Moment n) (Deed n) where
  step
    | s, .signal => (s.signal, [])
    | s, .opened p ok => (s.opened p ok, [])
    | s, .turn t => s.turn env t
    | s, .stopTimer p => (s.stopTimer p, [])
    | s, .left p => (s.left p, [])
    | s, .main => ({ s with main := s.goOn }, [])

/-- The turns that take place in a run. -/
def turnsOf (ms : List (Moment n)) : List (Turn n) := (program env n).project Program.taken {} ms

/-! ## A program's run is a run of the process -/

@[simp] theorem Program.setPhase_process (s : Program n) (p : Party n) (phase : Phase) :
    (s.setPhase p phase).process = s.process := rfl

theorem program_step (s : Program n) (m : Moment n) :
    ((program env n).step s m).1.process = (process env n).state s.process (s.taken m) ∧
      ((program env n).step s m).2 = (process env n).trace s.process (s.taken m) := by
  cases m with
  | signal =>
    refine ⟨?_, rfl⟩
    show s.signal.process = s.process
    unfold Program.signal
    split <;> rfl
  | opened p ok =>
    refine ⟨?_, rfl⟩
    show (s.opened p ok).process = s.process
    unfold Program.opened
    split <;> rfl
  | turn t =>
    show (s.turn env t).1.process = _ ∧ (s.turn env t).2 = _
    by_cases takes : s.takes t = true
    · simp only [Program.turn, Program.taken, if_pos takes]
      exact ⟨rfl, (List.append_nil _).symm⟩
    · simp only [Program.turn, Program.taken, if_neg takes]
      exact ⟨rfl, rfl⟩
  | stopTimer p =>
    refine ⟨?_, rfl⟩
    show (s.stopTimer p).process = s.process
    unfold Program.stopTimer
    split <;> rfl
  | left p =>
    refine ⟨?_, rfl⟩
    show (s.left p).process = s.process
    unfold Program.left
    split <;> rfl
  | main => exact ⟨rfl, rfl⟩

/-- **What a program does is what its process does** in the turns that take place. -/
theorem program_refines (ms : List (Moment n)) :
    ((program env n).state {} ms).process = (process env n).state {} (turnsOf env ms) ∧
      (program env n).trace {} ms = (process env n).trace {} (turnsOf env ms) :=
  (program env n).refines (program_step env) {} ms

/-! ## What a moment may do -/

/-- What a moment may do to the program. -/
inductive Moved (s : Program n) : Moment n → Program n → Prop
  | nothing {m : Moment n} : Moved s m s
  | signalled (loops : s.main.looping = true) (idle : s.process.main.Idle) :
    Moved s .signal { s with stopped := true, main := .leaving }
  | opened {p : Party n} {ok : Bool} (starts : s.phases p = .starting) :
    Moved s (.opened p ok) (s.setPhase p (if ok then .running else .ended))
  | turned {t : Turn n} {deeds : List (Deed n)} {process : Process n} (takes : s.takes t = true)
    (turned : Turned env s.process t deeds process) : Moved s (.turn t) { s with process }
  | stopping {p : Party n} (runs : s.phases p = .running) (free : s.process.Free p)
    (stopped : s.stopped = true) : Moved s (.stopTimer p) (s.setPhase p .leaving)
  | ended {p : Party n} (leaves : s.phases p = .leaving) (free : s.process.Free p) :
    Moved s (.left p) (s.setPhase p .ended)
  | returned (leaves : s.main = .leaving) (idle : s.process.main.Idle) :
    Moved s .main { s with main := .joiningStats }
  | joinedStats (waits : s.main = .joiningStats) (ended : s.phases .stats = .ended) :
    Moved s .main { s with main := .joining 0 }
  | joined {next : Nat} (waits : s.main = .joining next) (more : next < n)
    (ended : s.phases (.worker ⟨next, more⟩) = .ended) :
    Moved s .main { s with main := .joining (next + 1) }
  | exited {next : Nat} (waits : s.main = .joining next) (all : ¬ next < n) :
    Moved s .main { s with main := .exited }

theorem goOn_moved (s : Program n) : Moved env s .main { s with main := s.goOn } := by
  have stays : ∀ {m : MainPhase}, s.main = m → Moved env s .main { s with main := m } := by
    rintro m rfl
    exact .nothing
  unfold Program.goOn
  split
  · next runs => exact stays runs
  · next leaves =>
    split
    · next idle => exact .returned leaves idle
    · exact stays leaves
  · next waits =>
    split
    · next ended => exact .joinedStats waits ended
    · exact stays waits
  · next next waits =>
    split
    · next more =>
      split
      · next ended => exact .joined waits more ended
      · exact stays waits
    · next all => exact .exited waits all
  · next exited => exact stays exited

/-- **Every moment does one of these.** -/
theorem step_moved (s : Program n) (m : Moment n) :
    Moved env s m ((program env n).step s m).1 := by
  cases m with
  | signal =>
    show Moved env s .signal s.signal
    unfold Program.signal
    split
    · next when => exact .signalled when.1 when.2
    · exact .nothing
  | opened p ok =>
    show Moved env s _ (s.opened p ok)
    unfold Program.opened
    split
    · next starts => exact .opened starts
    · exact .nothing
  | turn t =>
    show Moved env s _ (s.turn env t).1
    unfold Program.turn
    split
    · next takes => exact .turned takes (step_turned env s.process t)
    · exact .nothing
  | stopTimer p =>
    show Moved env s _ (s.stopTimer p)
    unfold Program.stopTimer
    split
    · next when => exact .stopping when.1 when.2.1 when.2.2
    · exact .nothing
  | left p =>
    show Moved env s _ (s.left p)
    unfold Program.left
    split
    · next when => exact .ended when.1 when.2
    · exact .nothing
  | main => exact goOn_moved env s

/-! ## Nothing is cut short -/

/-- What holds of a program whatever happens. A thread outside its loop is between callbacks, and
so is the main one; the main thread leaves its loop when it is told to stop, and only then do the
others; and it waits for each of them. -/
structure Orderly (s : Program n) : Prop where
  free : ∀ p, (s.phases p).looping = false → s.process.Free p
  idle : s.main.looping = false → s.process.main.Idle
  stopped : s.stopped = true ↔ s.main ≠ .running
  leaving : ∀ p, s.phases p = .leaving → s.stopped = true
  joined : ∀ p, s.main.Joined p → s.phases p = .ended

section Turn

variable {env} {s s' : Process n} {t : Turn n} {deeds : List (Deed n)}

theorem Process.free_setGlobal (s : Process n) (g : GlobalCounters) (p : Party n) :
    (s.setGlobal g).Free p = s.Free p := by
  cases p <;> rfl

theorem Process.free_setQueue (s : Process n) (i : Fin n) (value : Int) (p : Party n) :
    (s.setQueue i value).Free p = s.Free p := by
  cases p <;> rfl

/-- A turn leaves the threads it does not belong to where they are. -/
theorem turned_free (h : Turned env s t deeds s') {p : Party n} (other : t.owner ≠ some p)
    (free : s.Free p) : s'.Free p := by
  have elsewhere : ∀ {i : Fin n} {u : Process n} {thread : Thread}, Party.worker i ≠ p →
      u.Free p → (u.setThread i thread).Free p := by
    intro i u thread ne freed
    cases p with
    | worker j =>
      obtain ⟨w, loops⟩ := freed
      have ji : j ≠ i := fun same => ne (congrArg Party.worker same.symm)
      exact ⟨w, by rw [Process.setThread_other u ji, loops]⟩
    | stats => exact freed
  have own : ∀ {i : Fin n}, t.owner = some (.worker i) → Party.worker i ≠ p := by
    rintro i owner rfl
    exact other owner
  have theirs : t.owner = some .stats → ∃ i, p = .worker i := by
    intro owner
    cases p with
    | worker i => exact ⟨i, rfl⟩
    | stats => exact absurd owner other
  cases h with
  | nothing => exact free
  | called => exact elsewhere (own rfl) free
  | stored => rwa [Process.free_setQueue]
  | begun => exact elsewhere (own rfl) (by rwa [Process.free_setQueue])
  | added =>
    rw [Process.free_setGlobal]
    exact elsewhere (own rfl) free
  | cleared => exact elsewhere (own rfl) free
  | ticked =>
    obtain ⟨i, rfl⟩ := theirs rfl
    exact free
  | exchanged =>
    obtain ⟨i, rfl⟩ := theirs rfl
    exact free
  | reported =>
    obtain ⟨i, rfl⟩ := theirs rfl
    exact free
  | summed threads stats counters =>
    cases p with
    | worker i =>
      obtain ⟨w, loops⟩ := free
      exact ⟨w, by rw [threads, loops]⟩
    | stats => exact stats.trans free

end Turn

variable {env}

theorem Program.setPhase_same (s : Program n) (p : Party n) (phase : Phase) :
    (s.setPhase p phase).phases p = phase := Function.update_self ..

theorem Program.setPhase_other (s : Program n) {p q : Party n} (h : q ≠ p) (phase : Phase) :
    (s.setPhase p phase).phases q = s.phases q := Function.update_of_ne h ..

/-- A thread that has not ended goes to its next place. -/
theorem Orderly.setPhase {s : Program n} (orderly : Orderly s) {p : Party n} {phase : Phase}
    (here : s.phases p ≠ .ended) (free : s.process.Free p)
    (told : phase = .leaving → s.stopped = true) : Orderly (s.setPhase p phase) where
  free q outside := by
    by_cases same : q = p
    · exact same ▸ free
    · rw [Program.setPhase_other s same] at outside
      exact orderly.free q outside
  idle := orderly.idle
  stopped := orderly.stopped
  leaving q leaves := by
    by_cases same : q = p
    · subst same
      exact told ((s.setPhase_same q phase).symm.trans leaves)
    · rw [Program.setPhase_other s same] at leaves
      exact orderly.leaving q leaves
  joined q joined := by
    have ended := orderly.joined q joined
    have other : q ≠ p := by
      rintro rfl
      exact here ended
    rw [Program.setPhase_other s other, ended]

/-- The main thread goes to its next place past its loop. -/
theorem Orderly.setMain {s : Program n} (orderly : Orderly s) {main : MainPhase}
    (past : s.main ≠ .running) (idle : s.process.main.Idle) (next : main ≠ .running)
    (joined : ∀ p, main.Joined p → s.phases p = .ended) : Orderly { s with main } where
  free := orderly.free
  idle _ := idle
  stopped := ⟨fun _ => next, fun _ => orderly.stopped.mpr past⟩
  leaving := orderly.leaving
  joined := joined

theorem moved_orderly {s s' : Program n} {m : Moment n} (h : Moved env s m s')
    (orderly : Orderly s) : Orderly s' := by
  cases h with
  | nothing => exact orderly
  | signalled loops idle =>
    exact { orderly with
      idle := nofun
      stopped := ⟨fun _ => nofun, fun _ => rfl⟩
      leaving := fun _ _ => rfl
      joined := fun p joined => by cases p <;> cases joined }
  | @opened p ok starts =>
    refine orderly.setPhase (by rw [starts]; nofun) (orderly.free p (by rw [starts]; rfl)) ?_
    cases ok <;> nofun
  | @turned t deeds process takes turned =>
    exact { orderly with
      free := by
        intro p outside
        refine turned_free turned ?_ (orderly.free p outside)
        intro owner
        have out : (s.phases p).looping = false := outside
        rw [Program.takes, owner] at takes
        exact Bool.false_ne_true (out.symm.trans takes)
      idle := by
        intro outside
        have other : t ≠ .queueSize := by
          rintro rfl
          rw [Program.takes, Turn.owner, outside] at takes
          cases takes
        exact (turned_main turned other).1.trans (orderly.idle outside) }
  | stopping runs free stopped =>
    exact orderly.setPhase (by rw [runs]; nofun) free fun _ => stopped
  | ended leaves free => exact orderly.setPhase (by rw [leaves]; nofun) free nofun
  | returned leaves idle =>
    refine orderly.setMain (by rw [leaves]; nofun) idle nofun ?_
    intro p joined
    cases p <;> cases joined
  | joinedStats waits ended =>
    refine orderly.setMain (by rw [waits]; nofun) (orderly.idle (by rw [waits]; rfl)) nofun ?_
    intro p joined
    cases p with
    | worker i => exact absurd joined (Nat.not_lt_zero _)
    | stats => exact ended
  | @joined next waits more ended =>
    refine orderly.setMain (by rw [waits]; nofun) (orderly.idle (by rw [waits]; rfl)) nofun ?_
    intro p joined
    cases p with
    | stats => exact orderly.joined .stats (by rw [waits]; trivial)
    | worker i =>
      rcases Nat.lt_succ_iff_lt_or_eq.mp joined with before | last
      · exact orderly.joined (.worker i) (by rw [waits]; exact before)
      · rwa [show i = ⟨next, more⟩ from Fin.ext last]
  | @exited next waits all =>
    refine orderly.setMain (by rw [waits]; nofun) (orderly.idle (by rw [waits]; rfl)) nofun ?_
    intro p _
    refine orderly.joined p ?_
    rw [waits]
    cases p with
    | stats => trivial
    | worker i => exact Nat.lt_of_lt_of_le i.isLt (Nat.not_lt.mp all)

variable (env)

theorem orderly_start : Orderly ({} : Program n) where
  free p _ := match p with
    | .worker _ => ⟨{}, rfl⟩
    | .stats => rfl
  idle := nofun
  stopped := by simp
  leaving _ leaves := nomatch leaves
  joined p joined := by cases p <;> cases joined

/-- **Every run is orderly.** -/
theorem run_orderly (ms : List (Moment n)) : Orderly ((program env n).state {} ms) :=
  (program env n).invariant (fun s _ => Orderly s) orderly_start
    (fun s _ m orderly => moved_orderly (step_moved env s m) orderly) ms

/-! ## What is left at the end -/

/-- **What an exit leaves behind.** When `main` has ended it had been told to stop, every thread
has ended, and none of them inside a flush or a report. What is lost then, where reports are posted
at all, is what the shared counters and those of the workers hold: with what was reported, and with
the reports whose post failed, that is all that was counted. -/
theorem exit_account (f : Field) (ms : List (Moment n))
    (exited : ((program env n).state {} ms).main = .exited) :
    ((program env n).state {} ms).stopped = true ∧
      (∀ p, ((program env n).state {} ms).phases p = .ended ∧
        ((program env n).state {} ms).process.Free p) ∧
      (env.config.statsSend = true → (((program env n).trace {} ms).map (Deed.reports true f)).sum
          + (((program env n).trace {} ms).map (Deed.reports false f)).sum
          + ((program env n).state {} ms).process.globalCounters.get f
          + ∑ i, (((program env n).state {} ms).process.threads i).worker.counters.get f
        = (process env n).income (increments env f) {} (turnsOf env ms)) := by
  have orderly := run_orderly env ms
  obtain ⟨state, trace⟩ := program_refines env ms
  have ended : ∀ p, ((program env n).state {} ms).phases p = .ended := by
    intro p
    refine orderly.joined p ?_
    rw [exited]
    trivial
  have free : ∀ p, ((program env n).state {} ms).process.Free p := by
    intro p
    refine orderly.free p ?_
    rw [ended p]
    rfl
  refine ⟨orderly.stopped.mpr (by rw [exited]; nofun), fun p => ⟨ended p, free p⟩, fun sends => ?_⟩
  have account := reports_account sends f (turnsOf env ms)
  rw [← state, ← trace] at account
  have taken : ((program env n).state {} ms).process.stats.taken f = 0 := by
    rw [show _ = StatsThread.idle from free .stats]
    rfl
  have pending : ∀ i, (((program env n).state {} ms).process.threads i).pending f
      = (((program env n).state {} ms).process.threads i).worker.counters.get f := by
    intro i
    obtain ⟨w, loops⟩ := free (.worker i)
    rw [loops]
    rfl
  rw [taken, Finset.sum_congr rfl fun i _ => pending i] at account
  omega

/-- The life of a program with one worker: a request, its flush, a report, and the end. -/
def wholeLife : List (Moment 1) :=
  [.opened (.worker ⟨0, Nat.one_pos⟩) true, .opened .stats true] ++ (reportedOnce true).map .turn
    ++ [.signal, .stopTimer (.worker ⟨0, Nat.one_pos⟩), .stopTimer .stats,
      .left (.worker ⟨0, Nat.one_pos⟩), .left .stats, .main, .main, .main, .main]

theorem exit_account_whole :
    ((program (.plain {}) 1).state {} wholeLife).stopped = true ∧
      (∀ p, ((program (.plain {}) 1).state {} wholeLife).phases p = .ended ∧
        ((program (.plain {}) 1).state {} wholeLife).process.Free p) ∧
      (((program (.plain {}) 1).trace {} wholeLife).map (Deed.reports true .total)).sum
          + (((program (.plain {}) 1).trace {} wholeLife).map (Deed.reports false .total)).sum
          + ((program (.plain {}) 1).state {} wholeLife).process.globalCounters.get .total
          + ∑ i, (((program (.plain {}) 1).state {} wholeLife).process.threads
            i).worker.counters.get .total
        = (process (.plain {}) 1).income (increments (.plain {}) .total) {}
          (turnsOf (.plain {}) wholeLife) := by
  obtain ⟨stopped, ended, account⟩ := exit_account (.plain {}) .total wholeLife rfl
  exact ⟨stopped, ended, account rfl⟩

end PeerNode
