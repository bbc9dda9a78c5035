import Mathlib.Algebra.Order.BigOperators.Group.Finset
import PeerNode.Limit
import PeerNode.Process

/-!
# The queue size of the process

`core.queue_size` is shared out: every thread gets the quotient by the thread count as its
own limit, and a limit of zero is no limit. Two things can go wrong on the way. The thread
count can be zero, when the file gives none and the hardware does not know; then the division
faults. And it can be larger than the queue size; then the quotient is zero and the process
takes all it is given.

Otherwise the shares do bound the process: a worker overshoots its own by one at most
(`load_le`), and the shares sum to no more than the whole.
-/

namespace PeerNode

open Mealy

/-! ## The share of a thread -/

/-- The threads a file and the hardware give: the setting, unless it is missing or zero. -/
def threadsFor (hardwareConcurrency : UInt32) (threads : Option UInt32) : UInt32 :=
  match threads with
  | some k => if k = 0 then hardwareConcurrency else k
  | none => hardwareConcurrency

theorem resolveThreads_eq (hardwareConcurrency : UInt32) (core : CoreGroup) :
    ({ threadsCount := hardwareConcurrency } : Config).resolveThreads hardwareConcurrency core
      = threadsFor hardwareConcurrency core.threads := by
  unfold Config.resolveThreads threadsFor
  cases core.threads with
  | none => exact ite_self _
  | some k => rfl

variable {hw : UInt32} {file : ConfigFile} {core : CoreGroup} {q : UInt32}

/-- Without threads there is nothing to divide by. -/
theorem loadConfig_no_threads (hcore : file.core = some core) (hq : core.queueSize = some q)
    (none_ : threadsFor hw core.threads = 0) : Config.loadConfig hw file = none := by
  simp [Config.loadConfig, Config.loadCore, hcore, hq, resolveThreads_eq, none_]

/-- With threads the file loads, and every thread gets its share. -/
theorem loadConfig_share (hcore : file.core = some core) (hq : core.queueSize = some q)
    (some_ : threadsFor hw core.threads ≠ 0) :
    ∃ c, Config.loadConfig hw file = some c ∧ c.threadsCount = threadsFor hw core.threads ∧
      c.threadQueueSize = ((q.toNat / (threadsFor hw core.threads).toNat : Nat) : Int) := by
  simp only [Config.loadConfig, Config.loadCore, hcore, hq, resolveThreads_eq, some_, if_false,
    Option.bind_eq_bind, Option.bind_some, Option.some.injEq, exists_eq_left']
  refine ⟨?_, ?_⟩
  · cases file.stats <;> cases file.http <;> simp
  · cases file.stats <;> cases file.http <;> simp

/-! ## The load of the process -/

/-- In flight and parked, over all workers. -/
def Process.load {n : Nat} (s : Process n) : Nat := ∑ i, (s.threads i).worker.load

variable {TX : Type} (env : Env TX)

/-- Every worker is at most one past its limit, so the process is at most one past for each. -/
theorem process_load_le {n : Nat} (limit : 0 < env.config.threadQueueSize) (es : List (Turn n)) :
    ((process env n).state {} es).load ≤ n * (env.config.threadQueueSize.toNat + 1) := by
  have each : ∀ i ∈ Finset.univ, (((process env n).state {} es).threads i).worker.load
      ≤ env.config.threadQueueSize.toNat + 1 := by
    intro i _
    obtain ⟨ds, run⟩ := threads_run env es i
    have load := load_le env limit ds
    rw [run]
    omega
  have total := Finset.sum_le_card_nsmul Finset.univ _ _ each
  rwa [Finset.card_univ, Fintype.card_fin, Nat.nsmul_eq_mul] at total

/-- Every request goes to one worker, and each is accepted and taken by the client. -/
def flood {n : Nat} (i : Fin n) (k : Nat) : List (Turn n) :=
  List.replicate k (.call i (.request plainSend (.accepted 1)))

/-- Without a limit a flood of `k` requests leaves `k` in flight. -/
theorem flood_load {n : Nat} {c : Config} (unlimited : c.threadQueueSize = 0) (i : Fin n)
    (k : Nat) :
    ∃ w, ((process (.plain c) n).state {} (flood i k)).threads i = .looping w ∧ w.load = k := by
  induction k with
  | zero => exact ⟨{}, rfl, rfl⟩
  | succ k ih =>
    obtain ⟨w, free, load⟩ := ih
    have admits : Admits (.plain c) w (.call (.request plainSend (.accepted 1))) :=
      ⟨plainSend, 1, _, _, rfl, plain_accepts (room_of_unlimited unlimited w),
        Option.some_ne_none _⟩
    refine ⟨_, ?_, (load_of_admits (.plain c) admits).trans (by rw [load])⟩
    rw [flood, List.replicate_succ', Machine.state_append]
    show (Process.call (.plain c) ((process (.plain c) n).state {} (flood i k)) i _).1.threads i = _
    rw [Process.call, free]
    exact Process.setThread_same ..

theorem load_le_process {n : Nat} (s : Process n) (i : Fin n) :
    (s.threads i).worker.load ≤ s.load :=
  Finset.single_le_sum (f := fun i => (s.threads i).worker.load) (fun _ _ => Nat.zero_le _)
    (Finset.mem_univ i)

/-! ## What the queue size bounds -/

/-- In every run of the configured workers, whatever they are given, at most `bound` requests
are in flight or parked. -/
def BoundsProcess (c : Config) (bound : Nat) : Prop :=
  ∀ (TX : Type) (env : Env TX), env.config = c →
    ∀ es : List (Turn c.threadsCount.toNat),
      ((process env c.threadsCount.toNat).state {} es).load ≤ bound

/-- A share that is not zero bounds the process. -/
theorem boundsProcess_of_share {c : Config} {q : Nat} (threads : 1 ≤ c.threadsCount.toNat)
    (share : c.threadQueueSize = ((q / c.threadsCount.toNat : Nat) : Int))
    (enough : c.threadsCount.toNat ≤ q) : BoundsProcess c (q + c.threadsCount.toNat) := by
  rintro TX env rfl es
  have positive : 0 < q / env.config.threadsCount.toNat := Nat.div_pos enough threads
  have load := process_load_le env (n := env.config.threadsCount.toNat) (by omega) es
  have shares := Nat.mul_div_le q env.config.threadsCount.toNat
  rw [share, Int.toNat_natCast, Nat.mul_succ] at load
  omega

/-- A share of zero bounds nothing. -/
theorem not_boundsProcess_of_no_share {c : Config} (threads : 1 ≤ c.threadsCount.toNat)
    (unlimited : c.threadQueueSize = 0) (bound : Nat) : ¬ BoundsProcess c bound := by
  intro bounds
  have load := bounds Bytes (.plain c) rfl (flood ⟨0, threads⟩ (bound + 1))
  obtain ⟨w, free, flooded⟩ := flood_load unlimited ⟨0, threads⟩ (bound + 1)
  have one := load_le_process
    ((process (.plain c) c.threadsCount.toNat).state {} (flood ⟨0, threads⟩ (bound + 1)))
    ⟨0, threads⟩
  rw [free] at one
  have grown : bound + 1 ≤ bound := (flooded.symm.trans_le one).trans load
  omega

/-- Threads, and no more of them than the queue size: the file loads and bounds the process. -/
theorem bounds_of_threads (hcore : file.core = some core) (hq : core.queueSize = some q)
    (threads : 1 ≤ (threadsFor hw core.threads).toNat)
    (enough : (threadsFor hw core.threads).toNat ≤ q.toNat) :
    ∃ c, Config.loadConfig hw file = some c ∧ c.threadQueueSize ≠ 0 ∧
      BoundsProcess c (q.toNat + c.threadsCount.toNat) := by
  have some_ : threadsFor hw core.threads ≠ 0 := by
    intro zero
    rw [zero] at threads
    exact absurd threads (Nat.not_succ_le_zero 0)
  obtain ⟨c, loaded, count, share⟩ := loadConfig_share hcore hq some_
  rw [← count] at threads enough share
  have quotient := Nat.div_pos enough threads
  exact ⟨c, loaded, by omega, boundsProcess_of_share threads share enough⟩

/-- And only then does a file load and bound it at all. -/
theorem threads_of_bounds (hcore : file.core = some core) (hq : core.queueSize = some q)
    {c : Config} (loaded : Config.loadConfig hw file = some c) {bound : Nat}
    (bounds : BoundsProcess c bound) :
    1 ≤ (threadsFor hw core.threads).toNat ∧ (threadsFor hw core.threads).toNat ≤ q.toNat := by
  have some_ : threadsFor hw core.threads ≠ 0 := by
    intro zero
    rw [loadConfig_no_threads hcore hq zero] at loaded
    cases loaded
  have threads : 1 ≤ (threadsFor hw core.threads).toNat := by
    apply Nat.one_le_iff_ne_zero.mpr
    intro zero
    exact some_ (UInt32.toNat_inj.mp zero)
  obtain ⟨c', loaded', count, share⟩ := loadConfig_share hcore hq some_
  obtain rfl := Option.some.inj (loaded.symm.trans loaded')
  refine ⟨threads, ?_⟩
  by_contra few
  rw [Nat.div_eq_of_lt (Nat.lt_of_not_le few)] at share
  rw [← count] at threads
  exact not_boundsProcess_of_no_share threads share bound bounds

/-- **When a queue size bounds the process.** Loading a file that gives one divides by no zero,
sets a limit and bounds every run by the queue size and one for each thread, if and only if there
are threads and no more of them than the queue size. Otherwise not even some of it is true: the
file does not load, or nothing is bounded. -/
theorem queue_size_bounds_iff (hcore : file.core = some core) (hq : core.queueSize = some q) :
    ((∃ c, Config.loadConfig hw file = some c ∧ c.threadQueueSize ≠ 0 ∧
        BoundsProcess c (q.toNat + c.threadsCount.toNat)) ↔
      1 ≤ (threadsFor hw core.threads).toNat ∧ (threadsFor hw core.threads).toNat ≤ q.toNat) ∧
    ((∃ c, Config.loadConfig hw file = some c ∧ ∃ bound, BoundsProcess c bound) ↔
      1 ≤ (threadsFor hw core.threads).toNat ∧ (threadsFor hw core.threads).toNat ≤ q.toNat) := by
  refine ⟨⟨?_, ?_⟩, ⟨?_, ?_⟩⟩
  · rintro ⟨c, loaded, -, bounds⟩
    exact threads_of_bounds hcore hq loaded bounds
  · rintro ⟨threads, enough⟩
    exact bounds_of_threads hcore hq threads enough
  · rintro ⟨c, loaded, bound, bounds⟩
    exact threads_of_bounds hcore hq loaded bounds
  · rintro ⟨threads, enough⟩
    obtain ⟨c, loaded, -, bounds⟩ := bounds_of_threads hcore hq threads enough
    exact ⟨c, loaded, _, bounds⟩

/-- Two threads share a queue size of ten. -/
theorem queue_size_bounds_ten :
    ∃ c, Config.loadConfig 4 { core := some { threads := some 2, queueSize := some 10 } } = some c ∧
      c.threadQueueSize ≠ 0 ∧ BoundsProcess c (10 + c.threadsCount.toNat) :=
  (@queue_size_bounds_iff 4 { core := some { threads := some 2, queueSize := some 10 } }
    { threads := some 2, queueSize := some 10 } 10 rfl rfl).1.mpr (by decide)

/-- A queue size of three, shared by eight threads, is no limit; and where no thread is
configured and the hardware tells of none, the file does not load. -/
theorem queue_size_is_lost :
    ¬ ∀ (hw : UInt32) (file : ConfigFile) (core : CoreGroup) (q : UInt32),
      file.core = some core → core.queueSize = some q → 1 ≤ q.toNat →
        ∃ c, Config.loadConfig hw file = some c ∧ c.threadQueueSize ≠ 0 ∧
          BoundsProcess c (q.toNat + c.threadsCount.toNat) := by
  intro always
  obtain ⟨c, loaded, limit, -⟩ := always 8
    { core := some { queueSize := some 3 } } { queueSize := some 3 } 3 rfl rfl (by decide)
  obtain rfl := Option.some.inj loaded
  exact limit rfl

end PeerNode
