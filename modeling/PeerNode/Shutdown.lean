import PeerNode.Lifecycle

/-!
# The end of the process

A program that was told to stop ends, from wherever it is. Its threads may be inside a flush or a
report, some may not have made their loops yet, and the main thread may be summing the backlogs;
each of them has something to do next, and doing it takes a count of what is left down
(`Program.remaining`). Nothing from outside is needed for it (`Moment.Closing`), and after the
end nothing happens any more.
-/

namespace PeerNode

open Mealy

variable {TX : Type} (env : Env TX) {n : Nat}

/-! ## What is left to do -/

/-- What is left to do of the life of a thread, in moments. -/
def Phase.rest : Phase → Nat
  | .starting => 3
  | .running => 2
  | .leaving => 1
  | .ended => 0

/-- And of the callback it is in. -/
def Thread.rest : Thread → Nat
  | .looping _ => 0
  | .merging _ rest _ _ => rest.length + 1

def StatsThread.rest : StatsThread → Nat
  | .idle => 0
  | .draining rest _ => rest.length + 1

def MainThread.rest (n : Nat) : MainThread → Nat
  | .idle => 0
  | .summing next _ => n - next + 1

/-- And of the end of `main`. -/
def MainPhase.rest (n : Nat) : MainPhase → Nat
  | .running => n + 4
  | .leaving => n + 3
  | .joiningStats => n + 2
  | .joining next => n - next + 1
  | .exited => 0

def Process.rest (s : Process n) : Party n → Nat
  | .worker i => (s.threads i).rest
  | .stats => s.stats.rest

namespace Program

def rest (s : Program n) (p : Party n) : Nat := (s.phases p).rest + s.process.rest p

def mainRest (s : Program n) : Nat := s.process.main.rest n + s.main.rest n

/-- What is left to do until `main` has ended. -/
def remaining (s : Program n) : Nat := (∑ i, s.rest (.worker i)) + s.rest .stats + s.mainRest

/-- One thread gets on, and nothing else changes. -/
theorem remaining_lt {s s' : Program n} (p : Party n) (less : s'.rest p < s.rest p)
    (others : ∀ q, q ≠ p → s'.rest q = s.rest q) (main : s'.mainRest = s.mainRest) :
    s'.remaining < s.remaining := by
  unfold remaining
  cases p with
  | worker i =>
    have workers : ∑ j, s'.rest (.worker j) < ∑ j, s.rest (.worker j) := by
      refine Finset.sum_lt_sum ?_ ⟨i, Finset.mem_univ i, less⟩
      intro j _
      by_cases same : j = i
      · exact same ▸ less.le
      · exact (others (.worker j) fun eq => same (Party.worker.inj eq)).le
    rw [main, others .stats nofun]
    omega
  | stats =>
    rw [main, Finset.sum_congr rfl fun j _ => others (.worker j) nofun]
    omega

/-- The main thread gets on. -/
theorem remaining_main_lt {s s' : Program n} (phases : s'.phases = s.phases)
    (threads : s'.process.threads = s.process.threads) (stats : s'.process.stats = s.process.stats)
    (less : s'.mainRest < s.mainRest) : s'.remaining < s.remaining := by
  have same : ∀ p, s'.rest p = s.rest p := by
    intro p
    unfold rest
    rw [phases]
    cases p with
    | worker i => exact congrArg (_ + Thread.rest ·) (congrFun threads i)
    | stats => exact congrArg (_ + StatsThread.rest ·) stats
  unfold remaining
  rw [same, Finset.sum_congr rfl fun i _ => same (.worker i)]
  omega

theorem remaining_setPhase (s : Program n) {p : Party n} {phase : Phase}
    (less : phase.rest < (s.phases p).rest) : (s.setPhase p phase).remaining < s.remaining := by
  refine remaining_lt p ?_ ?_ rfl
  · unfold rest
    rw [setPhase_same]
    exact Nat.add_lt_add_right less _
  · intro q other
    unfold rest
    rw [setPhase_other s other]
    rfl

end Program

/-- What may happen of itself once the program was told to stop: loops that are made or not, the
callbacks that are under way, with a post that is answered somehow, and the threads' ends. -/
def Moment.Closing (ok : Party n → Bool) (answer : Bool) : Moment n → Prop
  | .opened p answered => answered = ok p
  | .turn (.stats posted) => posted = answer
  | .turn (.merge _) | .turn .queueSize => True
  | .stopTimer _ | .left _ | .main => True
  | .signal | .turn (.call ..) | .turn (.updateCounters _) => False

/-- A flush gets on by one addition, or ends. -/
theorem merge_progress (s : Process n) {i : Fin n} (busy : ¬ s.Free (.worker i)) :
    (s.merge i).1.rest (.worker i) < s.rest (.worker i) ∧
      (∀ q, q ≠ .worker i → (s.merge i).1.rest q = s.rest q) ∧ (s.merge i).1.main = s.main := by
  have others : ∀ {t : Thread} {q : Party n}, q ≠ .worker i →
      (s.setThread i t).rest q = s.rest q := by
    intro t q other
    cases q with
    | worker j =>
      have ji : j ≠ i := fun same => other (congrArg Party.worker same)
      exact congrArg Thread.rest (Process.setThread_other s ji t)
    | stats => rfl
  unfold Process.merge
  cases thread : s.threads i with
  | looping w => exact absurd ⟨w, thread⟩ busy
  | merging w rest once counted =>
    cases rest with
    | nil =>
      refine ⟨?_, fun q other => others other, rfl⟩
      show ((s.setThread i _).threads i).rest < (s.threads i).rest
      rw [Process.setThread_same, thread]
      exact Nat.zero_lt_one
    | cons f rest =>
      refine ⟨?_, fun q other => ?_, rfl⟩
      · show (((s.setThread i _).setGlobal _).threads i).rest < (s.threads i).rest
        rw [Process.setGlobal_threads, Process.setThread_same, thread]
        exact Nat.lt_succ_self _
      · exact Eq.trans (by cases q <;> rfl) (others other)

/-- So does a report. -/
theorem statsTick_progress (answer : Bool) (s : Process n) (busy : ¬ s.Free .stats) :
    (s.statsTick env answer).1.rest .stats < s.rest .stats ∧
      (∀ q, q ≠ .stats → (s.statsTick env answer).1.rest q = s.rest q) ∧
        (s.statsTick env answer).1.main = s.main := by
  have others : ∀ {t : Process n} {q : Party n}, t.threads = s.threads → q ≠ .stats →
      t.rest q = s.rest q := by
    intro t q threads other
    cases q with
    | worker j => exact congrArg Thread.rest (congrFun threads j)
    | stats => exact absurd rfl other
  unfold Process.statsTick
  cases stats : s.stats with
  | idle => exact absurd stats busy
  | draining rest report =>
    cases rest with
    | nil =>
      refine ⟨?_, fun q other => others rfl other, rfl⟩
      show StatsThread.rest .idle < s.stats.rest
      rw [stats]
      exact Nat.zero_lt_one
    | cons f rest =>
      refine ⟨?_, fun q other => others rfl other, rfl⟩
      show (StatsThread.draining rest (report.set f (s.globalCounters.get f))).rest < s.stats.rest
      rw [stats]
      exact Nat.lt_succ_self _

/-- And a sum of the backlogs. -/
theorem queueSize_progress (s : Process n) (busy : ¬ s.main.Idle) :
    s.queueSize.1.main.rest n < s.main.rest n ∧ s.queueSize.1.threads = s.threads ∧
      s.queueSize.1.stats = s.stats := by
  unfold Process.queueSize
  cases main : s.main with
  | idle => exact absurd main busy
  | summing next size =>
    by_cases more : next < n
    · simp only [dif_pos more]
      refine ⟨?_, trivial, trivial⟩
      show n - (next + 1) + 1 < n - next + 1
      omega
    · simp only [dif_neg more]
      exact ⟨Nat.succ_pos _, rfl, rfl⟩

/-- A thread that has not ended gets on. -/
theorem party_progress (ok : Party n → Bool) (answer : Bool) {s : Program n}
    (stopped : s.stopped = true) {p : Party n} (here : s.phases p ≠ .ended) :
    ∃ m : Moment n, m.Closing ok answer ∧ ((program env n).step s m).1.remaining < s.remaining := by
  by_cases starts : s.phases p = .starting
  · refine ⟨.opened p (ok p), rfl, ?_⟩
    show (s.opened p (ok p)).remaining < _
    rw [Program.opened, if_pos starts]
    refine s.remaining_setPhase ?_
    rw [starts]
    cases ok p <;> decide
  have loops : (s.phases p).looping = true := by
    cases phase : s.phases p with
    | starting => exact absurd phase starts
    | ended => exact absurd phase here
    | _ => rfl
  by_cases free : s.process.Free p
  · by_cases leaves : s.phases p = .leaving
    · refine ⟨.left p, trivial, ?_⟩
      show (s.left p).remaining < _
      rw [Program.left, if_pos ⟨leaves, free⟩]
      refine s.remaining_setPhase ?_
      rw [leaves]
      decide
    · have runs : s.phases p = .running := by
        cases phase : s.phases p with
        | running => rfl
        | starting => exact absurd phase starts
        | leaving => exact absurd phase leaves
        | ended => exact absurd phase here
      refine ⟨.stopTimer p, trivial, ?_⟩
      show (s.stopTimer p).remaining < _
      rw [Program.stopTimer, if_pos ⟨runs, free, stopped⟩]
      refine s.remaining_setPhase ?_
      rw [runs]
      decide
  · cases p with
    | worker i =>
      obtain ⟨less, others, main⟩ := merge_progress s.process free
      refine ⟨.turn (.merge i), trivial, ?_⟩
      show (s.turn env (.merge i)).1.remaining < _
      rw [Program.turn, if_pos (show s.takes (.merge i) = true from loops)]
      refine Program.remaining_lt (.worker i) (Nat.add_lt_add_left less _) ?_ ?_
      · intro q other
        exact congrArg ((s.phases q).rest + ·) (others q other)
      · exact congrArg (MainThread.rest n · + s.main.rest n) main
    | stats =>
      obtain ⟨less, others, main⟩ := statsTick_progress env answer s.process free
      refine ⟨.turn (.stats answer), rfl, ?_⟩
      show (s.turn env (.stats answer)).1.remaining < _
      rw [Program.turn, if_pos (show s.takes (.stats answer) = true from loops)]
      refine Program.remaining_lt .stats (Nat.add_lt_add_left less _) ?_ ?_
      · intro q other
        exact congrArg ((s.phases q).rest + ·) (others q other)
      · exact congrArg (MainThread.rest n · + s.main.rest n) main

/-- With all of them ended, the main thread does. -/
theorem main_progress (ok : Party n → Bool) (answer : Bool) {s : Program n} (orderly : Orderly s)
    (stopped : s.stopped = true) (ended : ∀ p, s.phases p = .ended) (here : s.main ≠ .exited) :
    ∃ m : Moment n, m.Closing ok answer ∧ ((program env n).step s m).1.remaining < s.remaining := by
  by_cases idle : s.process.main.Idle
  · refine ⟨.main, trivial, ?_⟩
    refine Program.remaining_main_lt rfl rfl rfl ?_
    refine Nat.add_lt_add_left (show s.goOn.rest n < s.main.rest n from ?_) _
    unfold Program.goOn
    cases main : s.main with
    | running => exact absurd main (orderly.stopped.mp stopped)
    | leaving =>
      simp only [if_pos idle]
      exact Nat.lt_succ_self _
    | joiningStats =>
      simp only [if_pos (ended .stats)]
      exact Nat.lt_succ_self _
    | joining next =>
      by_cases more : next < n
      · simp only [dif_pos more, if_pos (ended _)]
        show n - (next + 1) + 1 < n - next + 1
        omega
      · simp only [dif_neg more]
        exact Nat.succ_pos _
    | exited => exact absurd main here
  · have loops : s.main.looping = true := by
      by_contra outside
      exact idle (orderly.idle (Bool.not_eq_true _ ▸ outside))
    obtain ⟨less, threads, stats⟩ := queueSize_progress s.process idle
    refine ⟨.turn .queueSize, trivial, ?_⟩
    show (s.turn env .queueSize).1.remaining < _
    rw [Program.turn, if_pos (show s.takes .queueSize = true from loops)]
    exact Program.remaining_main_lt rfl threads stats (Nat.add_lt_add_right less _)

/-- Nobody takes a stop back. -/
theorem moved_stopped {s s' : Program n} {m : Moment n} (h : Moved env s m s')
    (stopped : s.stopped = true) : s'.stopped = true := by
  cases h with
  | signalled => rfl
  | _ => exact stopped

/-- Nothing happens after the end. -/
theorem exited_step {s : Program n} (orderly : Orderly s) (exited : s.main = .exited)
    (m : Moment n) : (program env n).step s m = (s, []) := by
  have ended : ∀ p, s.phases p = .ended := by
    intro p
    refine orderly.joined p ?_
    rw [exited]
    trivial
  have quiet : s.main.looping = false := by
    rw [exited]
    rfl
  have elsewhere : ∀ {p : Party n} {phase : Phase}, phase ≠ .ended → s.phases p ≠ phase := by
    rintro p phase other rfl
    exact other (ended p)
  cases m with
  | signal =>
    show (s.signal, []) = _
    rw [Program.signal, if_neg]
    rw [quiet]
    exact fun loops => Bool.false_ne_true loops.1
  | opened p ok =>
    show (s.opened p ok, []) = _
    rw [Program.opened, if_neg (elsewhere (by decide))]
  | turn t =>
    have outside : s.takes t = false := by
      unfold Program.takes
      cases t.owner with
      | none => exact quiet
      | some p => exact congrArg Phase.looping (ended p)
    show s.turn env t = _
    rw [Program.turn, outside, if_neg Bool.false_ne_true]
  | stopTimer p =>
    show (s.stopTimer p, []) = _
    rw [Program.stopTimer, if_neg fun runs => elsewhere (by decide) runs.1]
  | left p =>
    show (s.left p, []) = _
    rw [Program.left, if_neg fun leaves => elsewhere (by decide) leaves.1]
  | main =>
    have stays : s.goOn = s.main := by
      rw [Program.goOn, exited]
    show ({ s with main := s.goOn }, []) = _
    rw [stays]

/-! ## How long it takes -/

/-- No callback is longer than the counters and its end. -/
theorem thread_rest_le (t : Thread) : t.rest ≤ 7 := by
  cases t with
  | looping w => exact Nat.zero_le _
  | merging w rest once counted =>
    have subset : rest.Subperm Field.all := once.subperm fun f _ => Field.mem_all f
    exact Nat.succ_le_succ subset.length_le

theorem stats_rest_le {t : StatsThread} (ordered : t.Ordered) : t.rest ≤ 7 := by
  cases t with
  | idle => exact Nat.zero_le _
  | draining rest report => exact Nat.succ_le_succ (List.IsSuffix.length_le ordered)

theorem run_stats_ordered (es : List (Turn n)) :
    ((process env n).state {} es).stats.Ordered :=
  (process env n).invariant (fun s _ => s.stats.Ordered) (show StatsThread.idle.Ordered from trivial)
    (fun s _ e ordered => turned_ordered (step_turned env s e) ordered) es

variable {env}

theorem Orderly.rest_le {s : Program n} (orderly : Orderly s) (ordered : s.process.stats.Ordered)
    (p : Party n) : s.rest p ≤ 9 := by
  have callback : s.process.rest p ≤ 7 := by
    cases p with
    | worker i => exact thread_rest_le _
    | stats => exact stats_rest_le ordered
  have between : (s.phases p).looping = false → s.process.rest p = 0 := by
    intro outside
    have free := orderly.free p outside
    cases p with
    | worker i =>
      obtain ⟨w, loops⟩ := free
      exact congrArg Thread.rest loops
    | stats => exact congrArg StatsThread.rest free
  unfold Program.rest
  cases phase : s.phases p with
  | running => exact Nat.add_le_add_left callback 2
  | leaving => exact Nat.le_succ_of_le (Nat.add_le_add_left callback 1)
  | starting =>
    rw [between (by rw [phase]; rfl)]
    decide
  | ended =>
    rw [between (by rw [phase]; rfl)]
    decide

theorem Orderly.mainRest_le {s : Program n} (orderly : Orderly s) (stopped : s.stopped = true) :
    s.mainRest ≤ 2 * n + 4 := by
  have summing : s.process.main.rest n ≤ n + 1 := by
    cases s.process.main with
    | idle => exact Nat.zero_le _
    | summing next size => exact Nat.succ_le_succ (Nat.sub_le n next)
  have ending : s.main.rest n ≤ n + 3 := by
    cases main : s.main with
    | running => exact absurd main (orderly.stopped.mp stopped)
    | leaving => exact le_rfl
    | joiningStats => exact Nat.le_succ _
    | joining next => exact Nat.add_le_add (Nat.sub_le n next) (by decide)
    | exited => exact Nat.zero_le _
  unfold Program.mainRest
  omega

theorem Orderly.remaining_le {s : Program n} (orderly : Orderly s)
    (ordered : s.process.stats.Ordered) (stopped : s.stopped = true) :
    s.remaining ≤ 11 * n + 13 := by
  have workers : ∑ i, s.rest (.worker i) ≤ n * 9 := by
    have each := Finset.sum_le_card_nsmul Finset.univ (fun i => s.rest (.worker i)) 9
      fun i _ => orderly.rest_le ordered (.worker i)
    rwa [Finset.card_univ, Fintype.card_fin, nsmul_eq_mul, Nat.cast_id] at each
  have stats := orderly.rest_le ordered .stats
  have main := orderly.mainRest_le stopped
  unfold Program.remaining
  omega

variable (env)

/-- After the end a run stays where it is. -/
theorem exited_run {s : Program n} (orderly : Orderly s) (exited : s.main = .exited)
    (ms : List (Moment n)) :
    (program env n).state s ms = s ∧ (program env n).trace s ms = [] := by
  induction ms with
  | nil => exact ⟨rfl, rfl⟩
  | cons m ms ih =>
    rw [Machine.state_cons, Machine.trace_cons, exited_step env orderly exited m]
    exact ih

/-- **A program that was told to stop can always end.** From every state it can be in, whatever the
threads are in the middle of, whichever loops can be made and whatever the last post is answered,
it ends by itself: no request, no signal and no new flush is needed, and it takes no more moments
than a fixed number for each worker. After that nothing happens any more. -/
theorem shutdown_completes (ms : List (Moment n))
    (stopped : ((program env n).state {} ms).stopped = true) (ok : Party n → Bool)
    (answer : Bool) :
    ∃ fs : List (Moment n), fs.length ≤ 11 * n + 13 ∧ (∀ m ∈ fs, m.Closing ok answer) ∧
      ((program env n).state {} (ms ++ fs)).main = .exited ∧
      ∀ gs, (program env n).state {} (ms ++ fs ++ gs) = (program env n).state {} (ms ++ fs) ∧
        (program env n).trace {} (ms ++ fs ++ gs) = (program env n).trace {} (ms ++ fs) := by
  have ordered := run_stats_ordered env (turnsOf env ms)
  rw [← (program_refines env ms).1] at ordered
  have progress : ∀ s : Program n, Orderly s ∧ s.stopped = true → s.main ≠ .exited →
      ∃ m : Moment n, m.Closing ok answer ∧
        (Orderly ((program env n).step s m).1 ∧ ((program env n).step s m).1.stopped = true) ∧
        ((program env n).step s m).1.remaining < s.remaining := by
    rintro s ⟨orderly, stopped⟩ here
    obtain ⟨m, can, less⟩ : ∃ m : Moment n, m.Closing ok answer ∧
        ((program env n).step s m).1.remaining < s.remaining := by
      by_cases ended : ∀ p, s.phases p = .ended
      · exact main_progress env ok answer orderly stopped ended here
      · obtain ⟨p, running⟩ := not_forall.mp ended
        exact party_progress env ok answer stopped running
    have moved := step_moved env s m
    exact ⟨m, can, ⟨moved_orderly moved orderly, moved_stopped env moved stopped⟩, less⟩
  obtain ⟨fs, short, closing, exited⟩ :=
    (program env n).completes progress ⟨run_orderly env ms, stopped⟩
  rw [← Machine.state_append] at exited
  refine ⟨fs, short.trans ((run_orderly env ms).remaining_le ordered stopped), closing, exited, ?_⟩
  intro gs
  obtain ⟨state, trace⟩ := exited_run env (run_orderly env (ms ++ fs)) exited gs
  rw [(program env n).state_append {} (ms ++ fs), (program env n).trace_append {} (ms ++ fs),
    state, trace, List.append_nil]
  exact ⟨rfl, rfl⟩

/-- Told to stop before its statistics thread has a loop. -/
theorem shutdown_completes_early :
    ∃ fs : List (Moment 1), fs.length ≤ 11 * 1 + 13 ∧
      (∀ m ∈ fs, m.Closing (fun _ => true) false) ∧
      ((program (.plain {}) 1).state {} ([.opened (.worker 0) true, .signal] ++ fs)).main
        = .exited ∧
      ∀ gs, (program (.plain {}) 1).state {} ([.opened (.worker 0) true, .signal] ++ fs ++ gs)
          = (program (.plain {}) 1).state {} ([.opened (.worker 0) true, .signal] ++ fs) ∧
        (program (.plain {}) 1).trace {} ([.opened (.worker 0) true, .signal] ++ fs ++ gs)
          = (program (.plain {}) 1).trace {} ([.opened (.worker 0) true, .signal] ++ fs) :=
  shutdown_completes (.plain {}) [.opened (.worker 0) true, .signal] rfl (fun _ => true) false

end PeerNode
