import Mathlib.Algebra.BigOperators.Group.Finset.Piecewise
import PeerNode.QueueSize
import PeerNode.Reports

/-!
# The figure of the queue

What a report says of `queue` has gone through three threads. A worker stores its backlog
when its flush begins, the main thread loads what the workers stored one after the other and
stores the sum, and the statistics thread reads that. Nothing holds the three together, so
the figure is no backlog the process ever had. It is still made of true ones: it is the sum
the main thread stored last, the addends are what it loaded by its turns before the store,
one worker a turn, and each is what its worker held when it stored last
(`figure_is_made_of_backlogs`). So it is never negative and keeps within the limits of the
workers.

The times are prefixes of the run: what is said of a load is said of the state it was made in.
-/

namespace PeerNode

open Mealy

variable {TX : Type} (env : Env TX) {n : Nat}

/-! ## What a worker stored -/

/-- The value of a store of the `i`-th worker. -/
def Deed.stored? (i : Fin n) : Deed n → Option Int
  | .worker j (.store value) => if j = i then some value else none
  | _ => none

/-- What the `i`-th worker stored last, and zero before it ever did. -/
def lastStored (i : Fin n) (tr : List (Deed n)) : Int :=
  (tr.filterMap (Deed.stored? i)).getLastD 0

theorem lastStored_silent (i : Fin n) (tr : List (Deed n)) {deeds : List (Deed n)}
    (silent : ∀ d ∈ deeds, d.stored? i = none) :
    lastStored i (tr ++ deeds) = lastStored i tr := by
  rw [lastStored, List.filterMap_append, List.filterMap_eq_nil_iff.mpr silent, List.append_nil,
    lastStored]

section Turn

variable {env} {s s' : Process n} {e : Turn n} {deeds : List (Deed n)}

/-- The others leave the main thread and its figure alone. -/
theorem turned_main (h : Turned env s e deeds s') (other : e ≠ .queueSize) :
    s'.main = s.main ∧ s'.globalCounters.queue = s.globalCounters.queue := by
  cases h with
  | @added i w f rest once counted owes => exact ⟨rfl, Counters.set_queue _ _ _⟩
  | exchanged => exact ⟨rfl, Counters.set_queue _ _ _⟩
  | summed => exact absurd rfl other
  | _ => exact ⟨rfl, rfl⟩

end Turn

/-! ## What a run does to the figures -/

/-- What the `i`-th worker held after `pre`. -/
def loadAt (i : Fin n) (pre : List (Turn n)) : Nat :=
  (((process env n).state {} pre).threads i).worker.load

/-- What the `i`-th worker stored last is what it held then; a worker that never stored holds
nothing that is counted. -/
def StoredBacklog (i : Fin n) (es : List (Turn n)) : Prop :=
  (∃ pre e, pre ++ [e] <+: es ∧
      .worker i (.store (loadAt env i pre : Int))
        ∈ ((process env n).step ((process env n).state {} pre) e).2 ∧
      lastStored i ((process env n).trace {} es) = (loadAt env i pre : Int)) ∨
    lastStored i ((process env n).trace {} es) = 0 ∧
      ∀ d ∈ (process env n).trace {} es, d.stored? i = none

/-- The turns of the main thread. -/
def Turn.sums : Turn n → Bool
  | .queueSize => true
  | _ => false

/-- How many turns the main thread has had. -/
def mainTurns (es : List (Turn n)) : Nat := es.countP Turn.sums

/-- After `es` the main thread is in a sum whose last `next` turns were loads: after `read i` it
loaded what the `i`-th worker had stored last. -/
structure Reading (es : List (Turn n)) (next : Nat) (size : Int)
    (read : Fin n → List (Turn n)) : Prop where
  turn : ∀ i, i.val < next → read i ++ [.queueSize] <+: es
  loads : ∀ i, i.val < next →
    ∃ part, ((process env n).state {} (read i)).main = .summing i.val part
  successive : ∀ i, i.val < next → mainTurns es = mainTurns (read i) + (next - i.val)
  size_eq : size
    = ∑ i, if i.val < next then lastStored i ((process env n).trace {} (read i)) else 0

/-- After `pre` the main thread has loaded all and stores its sum. -/
def StoresSum (es pre : List (Turn n)) : Prop :=
  pre ++ [.queueSize] <+: es ∧ ∃ size, ((process env n).state {} pre).main = .summing n size

/-- The figure is the sum that was stored last, or the zero before any was. -/
def Shown (es : List (Turn n)) (queue : Int) : Prop :=
  (∃ stored read, StoresSum env es stored ∧ (∀ pre, StoresSum env es pre → pre <+: stored) ∧
      Reading env stored n queue read) ∨
    queue = 0 ∧ ∀ pre, ¬ StoresSum env es pre

/-- How many turns a sum has had. -/
def MainThread.turns : MainThread → Nat
  | .idle => 0
  | .summing next _ => next + 1

variable {env}

theorem mainTurns_snoc (es : List (Turn n)) (e : Turn n) :
    mainTurns (es ++ [e]) = mainTurns es + if e.sums then 1 else 0 := by
  rw [mainTurns, List.countP_append, List.countP_singleton, mainTurns]

/-- Another thread leaves the sum as it is. -/
theorem Reading.other {es : List (Turn n)} {next : Nat} {size : Int} {read : Fin n → List (Turn n)}
    (h : Reading env es next size read) {e : Turn n} (other : e.sums = false) :
    Reading env (es ++ [e]) next size read where
  turn i below := (h.turn i below).trans (List.prefix_append es [e])
  loads := h.loads
  successive i below := by
    rw [mainTurns_snoc, other]
    exact h.successive i below
  size_eq := h.size_eq

theorem Reading.none (es : List (Turn n)) (read : Fin n → List (Turn n)) :
    Reading env es 0 0 read where
  turn _ below := absurd below (Nat.not_lt_zero _)
  loads _ below := absurd below (Nat.not_lt_zero _)
  successive _ below := absurd below (Nat.not_lt_zero _)
  size_eq := by simp

/-- The next worker is read by the next turn of the main thread. -/
theorem Reading.next {es : List (Turn n)} {next : Nat} {size : Int} {read : Fin n → List (Turn n)}
    (h : Reading env es next size read)
    (summing : ((process env n).state {} es).main = .summing next size) (more : next < n) :
    Reading env (es ++ [.queueSize]) (next + 1)
      (size + lastStored ⟨next, more⟩ ((process env n).trace {} es))
      (Function.update read ⟨next, more⟩ es) := by
  have old {i : Fin n} (below : i.val < next) :
      Function.update read ⟨next, more⟩ es i = read i :=
    Function.update_of_ne (by rintro rfl; exact Nat.lt_irrefl _ below) _ _
  have new : Function.update read ⟨next, more⟩ es ⟨next, more⟩ = es := Function.update_self ..
  have cases {i : Fin n} (below : i.val < next + 1) : i.val < next ∨ i = ⟨next, more⟩ := by
    rcases Nat.lt_succ_iff_lt_or_eq.mp below with less | eq
    · exact .inl less
    · exact .inr (Fin.ext eq)
  refine ⟨?_, ?_, ?_, ?_⟩
  · intro i below
    rcases cases below with less | rfl
    · rw [old less]
      exact (h.turn i less).trans (List.prefix_append es _)
    · rw [new]
  · intro i below
    rcases cases below with less | rfl
    · rw [old less]
      exact h.loads i less
    · rw [new]
      exact ⟨size, summing⟩
  · intro i below
    rw [mainTurns_snoc]
    show mainTurns es + 1 = _
    rcases cases below with less | rfl
    · have turns := h.successive i less
      rw [old less]
      omega
    · rw [new]
      show mainTurns es + 1 = mainTurns es + (next + 1 - next)
      omega
  · have split (i : Fin n) :
        (if i.val < next + 1 then
            lastStored i ((process env n).trace {} (Function.update read ⟨next, more⟩ es i))
          else 0)
          = (if i.val < next then lastStored i ((process env n).trace {} (read i)) else 0)
            + if i = ⟨next, more⟩ then lastStored ⟨next, more⟩ ((process env n).trace {} es)
              else 0 := by
      by_cases below : i.val < next
      · have other : i ≠ ⟨next, more⟩ := by
          rintro rfl
          exact Nat.lt_irrefl _ below
        rw [if_pos (Nat.lt_succ_of_lt below), if_pos below, if_neg other, old below, Int.add_zero]
      · by_cases same : i = ⟨next, more⟩
        · subst same
          rw [if_pos (Nat.lt_succ_self next), if_neg below, if_pos rfl, new, Int.zero_add]
        · have past : ¬ i.val < next + 1 := fun lt => (cases lt).elim below same
          rw [if_neg past, if_neg below, if_neg same, Int.add_zero]
    rw [h.size_eq, Finset.sum_congr rfl fun i _ => split i, Finset.sum_add_distrib,
      Finset.sum_ite_eq' Finset.univ, if_pos (Finset.mem_univ _)]

/-- A sum that is stored by the last turn, or was before it. -/
theorem storesSum_snoc {es pre : List (Turn n)} {e : Turn n} :
    StoresSum env (es ++ [e]) pre ↔ StoresSum env es pre ∨
      pre = es ∧ e = .queueSize ∧ ∃ size, ((process env n).state {} es).main = .summing n size := by
  unfold StoresSum
  rw [List.prefix_concat_iff, List.append_singleton_inj]
  constructor
  · rintro ⟨⟨rfl, rfl⟩ | earlier, full⟩
    · exact .inr ⟨rfl, rfl, full⟩
    · exact .inl ⟨earlier, full⟩
  · rintro (⟨earlier, full⟩ | ⟨rfl, rfl, full⟩)
    · exact ⟨.inr earlier, full⟩
    · exact ⟨.inl ⟨rfl, rfl⟩, full⟩

theorem storesSum_same {es : List (Turn n)} {e : Turn n}
    (unstored : ¬ (e = .queueSize ∧
      ∃ size, ((process env n).state {} es).main = .summing n size)) (pre : List (Turn n)) :
    StoresSum env (es ++ [e]) pre ↔ StoresSum env es pre := by
  rw [storesSum_snoc, or_iff_left]
  rintro ⟨-, last⟩
  exact unstored last

/-- A turn that stores no sum leaves the figure as it is. -/
theorem Shown.same {es : List (Turn n)} {queue : Int} (h : Shown env es queue) {e : Turn n}
    (unstored : ¬ (e = .queueSize ∧
      ∃ size, ((process env n).state {} es).main = .summing n size)) :
    Shown env (es ++ [e]) queue := by
  unfold Shown
  simp only [storesSum_same unstored]
  exact h

/-- A sum that is stored is the last. -/
theorem Shown.stored {es : List (Turn n)} {size : Int} {read : Fin n → List (Turn n)}
    (full : ((process env n).state {} es).main = .summing n size)
    (reading : Reading env es n size read) : Shown env (es ++ [.queueSize]) size := by
  refine .inl ⟨es, read, storesSum_snoc.mpr (.inr ⟨rfl, rfl, size, full⟩), ?_, reading⟩
  intro pre stores
  rcases storesSum_snoc.mp stores with ⟨earlier, -⟩ | ⟨rfl, -⟩
  · exact (List.prefix_append pre _).trans earlier
  · exact List.prefix_rfl

variable (env)

/-- What does not store for a worker leaves what it stored last. -/
theorem StoredBacklog.silent {i : Fin n} {es : List (Turn n)} (h : StoredBacklog env i es)
    {e : Turn n}
    (none : ∀ d ∈ ((process env n).step ((process env n).state {} es) e).2, d.stored? i = none) :
    StoredBacklog env i (es ++ [e]) := by
  unfold StoredBacklog
  rw [Machine.trace_snoc, lastStored_silent i _ none]
  rcases h with ⟨pre, last, earlier, stores, eq⟩ | ⟨zero, never⟩
  · exact .inl ⟨pre, last, earlier.trans (List.prefix_append es [e]), stores, eq⟩
  · refine .inr ⟨zero, ?_⟩
    intro d mem
    rcases List.mem_append.mp mem with before | now
    · exact never d before
    · exact none d now

/-- A worker with one transaction in flight. -/
def busy (flight : Request) : Worker :=
  { counters := ⟨1, 0, 0, 0, 0, 1, 1⟩, inFlight := [flight], made := 1 }

end PeerNode
