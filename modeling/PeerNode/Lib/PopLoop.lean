import Mathlib.Algebra.Group.Nat.Defs
import Mathlib.Data.Nat.Size
import Mathlib.Order.Iterate

/-!
# The loop that pops the queue its bound reads

```
for (i = 0; i < min(cap, queue.size()); i++) {
    body(i, queue.front());
    queue.pop_front();
}
```

The bound is read again at every turn, from a queue the body has made shorter, so the
loop does not make `min cap n` turns on a queue of length `n`: the index climbs while
the length falls and they meet half way. `served` is the number of turns it does make,
`run_eq` proves it, and `served_eq_min_iff` says for which lengths the two agree.

The second half is about a loop that is run again and again while others join the queue
behind. `left` is how many of the first `m` are still waiting after one run that found
exactly them; a longer queue only helps (`served_mono`), and `left_iterate_eq_zero` bounds
the runs it takes: the capped part of the wait is linear, the rest halves.
-/

namespace PopLoop

variable {α β : Type*}

/-- The loop, from index `i`, over a queue whose front is the head of the list. It answers
the state its body made and what is left of the queue. -/
def run (cap : Nat) (body : Nat → α → β → β) : Nat → List α → β → β × List α
  | _, [], s => (s, [])
  | i, a :: queue, s =>
    if i < min cap (queue.length + 1) then run cap body (i + 1) queue (body i a s)
    else (s, a :: queue)

/-- The body over a list, from index `i`, every element once and in order. -/
def passes (body : Nat → α → β → β) : Nat → List α → β → β
  | _, [], s => s
  | i, a :: l, s => passes body (i + 1) l (body i a s)

/-- The turns the loop makes on a queue of length `n`. -/
def served (cap n : Nat) : Nat := min cap ((n + 1) / 2)

/-! ## What one run does -/

/-- From index `i` the loop passes over a front part of the queue and leaves the rest: the
index gains one and the length loses one at every turn, so half the distance is covered. -/
theorem run_eq_from (cap : Nat) (body : Nat → α → β → β) (i : Nat) (queue : List α) (s : β) :
    run cap body i queue s =
      (passes body i (queue.take (min (cap - i) ((queue.length - i + 1) / 2))) s,
        queue.drop (min (cap - i) ((queue.length - i + 1) / 2))) := by
  induction queue generalizing i s with
  | nil => simp only [run, List.take_nil, passes, List.drop_nil]
  | cons a queue ih =>
    by_cases turn : i < min cap (queue.length + 1)
    · have count : min (cap - i) (((a :: queue).length - i + 1) / 2) =
          min (cap - (i + 1)) ((queue.length - (i + 1) + 1) / 2) + 1 := by
        rw [List.length_cons]
        omega
      rw [run, if_pos turn, ih, count, List.take_succ_cons, List.drop_succ_cons, passes]
    · have count : min (cap - i) (((a :: queue).length - i + 1) / 2) = 0 := by
        rw [List.length_cons]
        omega
      rw [run, if_neg turn, count, List.take_zero, List.drop_zero, passes]

/-- **One run**: the body passes over the first `served` elements, in order and each once, and
exactly the others stay. -/
theorem run_eq (cap : Nat) (body : Nat → α → β → β) (queue : List α) (s : β) :
    run cap body 0 queue s =
      (passes body 0 (queue.take (served cap queue.length)) s,
        queue.drop (served cap queue.length)) := by
  simpa only [Nat.sub_zero, served] using run_eq_from cap body 0 queue s

/-- What every turn keeps, of the state and of the queue still waiting, the loop keeps. -/
theorem run_keeps {cap : Nat} {body : Nat → α → β → β} {P : β → List α → Prop}
    (turn : ∀ i a queue s, P s (a :: queue) → P (body i a s) queue)
    (i : Nat) (queue : List α) (s : β) (h : P s queue) :
    P (run cap body i queue s).1 (run cap body i queue s).2 := by
  induction queue generalizing i s with
  | nil => exact h
  | cons a queue ih =>
    by_cases more : i < min cap (queue.length + 1)
    · rw [run, if_pos more]
      exact ih (i + 1) (body i a s) (turn i a queue s h)
    · rwa [run, if_neg more]

/-- A map of states that the body commutes with commutes with the loop. -/
theorem run_map {γ : Type*} {cap : Nat} {body : Nat → α → β → β} {body' : Nat → α → γ → γ}
    (g : β → γ) (commutes : ∀ i a s, body' i a (g s) = g (body i a s))
    (i : Nat) (queue : List α) (s : β) :
    run cap body' i queue (g s) =
      (g (run cap body i queue s).1, (run cap body i queue s).2) := by
  induction queue generalizing i s with
  | nil => rfl
  | cons a queue ih =>
    by_cases more : i < min cap (queue.length + 1)
    · rw [run, run, if_pos more, if_pos more, commutes, ih]
    · rw [run, run, if_neg more, if_neg more]

/-! ## How many a run serves -/

theorem served_le (cap n : Nat) : served cap n ≤ n := by
  unfold served
  omega

theorem served_mono (cap : Nat) {m n : Nat} (h : m ≤ n) : served cap m ≤ served cap n := by
  unfold served
  omega

/-- The loop serves a full batch exactly on queues too short or too long to be halved. -/
theorem served_eq_min_iff {cap : Nat} (hcap : 0 < cap) (n : Nat) :
    served cap n = min cap n ↔ n ≤ 1 ∨ 2 * cap ≤ n + 1 := by
  unfold served
  omega

/-! ## How long the queue's `m`-th waits -/

/-- How many of the first `m` still wait after a run over just them. -/
def left (cap m : Nat) : Nat := m - served cap m

theorem left_mono (cap : Nat) : Monotone (left cap) := by
  intro m n h
  unfold left served
  omega

/-- A run over a longer queue leaves no more of the first `m` than a run over just them. -/
theorem sub_served_le_left (cap : Nat) {m n : Nat} (h : m ≤ n) :
    m - served cap n ≤ left cap m :=
  Nat.sub_le_sub_left (served_mono cap h) m

/-- Up to twice the cap, a run halves. -/
theorem left_eq_half {cap m : Nat} (h : m ≤ 2 * cap) : left cap m = m / 2 := by
  unfold left served
  omega

/-- From twice the cap on, a run serves the cap. -/
theorem left_eq_sub {cap m : Nat} (h : 2 * cap ≤ m + 1) : left cap m = m - cap := by
  unfold left served
  omega

/-- The halving part of the wait: below a power of two, its exponent bounds the runs. -/
theorem left_iterate_halves {cap : Nat} (k : Nat) {m : Nat} (hk : m < 2 ^ k) (h : m ≤ 2 * cap) :
    (left cap)^[k] m = 0 := by
  induction k generalizing m with
  | zero => exact Nat.lt_one_iff.mp hk
  | succ k ih =>
    rw [Function.iterate_succ_apply, left_eq_half h]
    have half : m / 2 < 2 ^ k := by
      rw [Nat.pow_succ] at hk
      omega
    exact ih half (by omega)

/-- **The wait is bounded**: after `m / cap` runs for the full batches and as many as the cap has
binary digits for the rest, none of the first `m` is waiting. -/
theorem left_iterate_eq_zero {cap : Nat} (hcap : 0 < cap) (m : Nat) :
    (left cap)^[m / cap + cap.size] m = 0 := by
  induction m using Nat.strongRecOn with
  | ind m ih =>
    have digits : cap < 2 ^ cap.size := Nat.lt_size_self cap
    by_cases short : m < cap
    · rw [Nat.div_eq_of_lt short, Nat.zero_add]
      exact left_iterate_halves _ (Nat.lt_trans short digits) (by omega)
    · have quotient : m / cap = (m - cap) / cap + 1 := Nat.div_eq_sub_div hcap (by omega)
      by_cases twice : 2 * cap ≤ m
      · rw [quotient, Nat.add_right_comm, Function.iterate_succ_apply,
          left_eq_sub (by omega)]
        exact ih (m - cap) (by omega)
      · have rest : (m - cap) / cap = 0 := Nat.div_eq_of_lt (by omega)
        rw [quotient, rest, Nat.zero_add, Nat.add_comm, Function.iterate_succ_apply,
          left_eq_half (by omega)]
        exact left_iterate_halves _ (Nat.lt_trans (by omega) digits) (by omega)

end PopLoop
