import Mathlib.Logic.Function.Basic
import Mathlib.Logic.Relation

/-!
# Custody

Tokens are handed from place to place. That a token is never in two places and, once it
has entered, never in none, is what the type says: `Whereabouts` is a function into
`Option`. A handover moves one token along a permitted route, `none` being the outside.

A program rarely keeps such a function. It keeps lists, and a token is in a place as often
as some list mentions it. `Tallies` relates the two: every count is the one the function
predicts. `Tallies.handed` is the step of a refinement proof, and `Tallies.existsUnique_iff`
is what the refinement is for: counts that may be anything are, for a token inside, one in
exactly one place and zero in all others.
-/

namespace Custody

variable {π τ : Type*}

/-- Where each token is: in one place, or not entered yet. -/
abbrev Whereabouts (π τ : Type*) := τ → Option π

/-- Every token is outside. -/
def Whereabouts.empty : Whereabouts π τ := fun _ => none

/-! ## Counting -/

section Counting

variable [DecidableEq π]

/-- Every place holds a token as often as its whereabouts say: once if it is there, else never. -/
def Tallies (held : π → τ → Nat) (loc : Whereabouts π τ) : Prop :=
  ∀ p t, held p t = if loc t = some p then 1 else 0

variable {held : π → τ → Nat} {loc : Whereabouts π τ}

theorem Tallies.pos_iff (h : Tallies held loc) (p : π) (t : τ) :
    0 < held p t ↔ loc t = some p := by
  rw [h p t]
  by_cases here : loc t = some p
  · rw [if_pos here]
    exact iff_of_true Nat.one_pos here
  · rw [if_neg here]
    exact iff_of_false (Nat.lt_irrefl 0) here

/-- **Exactly one place**: a token is inside if and only if one place holds it and no other
does. -/
theorem Tallies.existsUnique_iff (h : Tallies held loc) (t : τ) :
    (∃! p, 0 < held p t) ↔ loc t ≠ none := by
  constructor
  · rintro ⟨p, here, -⟩ outside
    rw [h.pos_iff, outside] at here
    cases here
  · intro inside
    obtain ⟨p, here⟩ := Option.ne_none_iff_exists'.mp inside
    refine ⟨p, (h.pos_iff p t).mpr here, ?_⟩
    intro q there
    rw [h.pos_iff, here] at there
    exact (Option.some.inj there).symm

end Counting

/-! ## Handing over -/

variable [DecidableEq τ]

/-- The token `t` is handed to the place `p`. -/
def hand (loc : Whereabouts π τ) (t : τ) (p : π) : Whereabouts π τ := Function.update loc t (some p)

theorem hand_same (loc : Whereabouts π τ) (t : τ) (p : π) : hand loc t p t = some p := by
  rw [hand, Function.update_self]

theorem hand_other (loc : Whereabouts π τ) {t u : τ} (h : u ≠ t) (p : π) :
    hand loc t p u = loc u := by
  rw [hand, Function.update_of_ne h]

/-- One token is handed along a permitted route. -/
inductive Handover (route : Option π → π → Prop) : Whereabouts π τ → Whereabouts π τ → Prop
  | mk {loc : Whereabouts π τ} {t : τ} {p : π} (permitted : route (loc t) p) :
    Handover route loc (hand loc t p)

/-- Any number of handovers. -/
abbrev Handovers (route : Option π → π → Prop) : Whereabouts π τ → Whereabouts π τ → Prop :=
  Relation.ReflTransGen (Handover route)

variable {route : Option π → π → Prop} {loc loc' : Whereabouts π τ}

/-- A token that is inside stays inside: there is no route out. -/
theorem Handover.inside (h : Handover route loc loc') {u : τ} (hu : loc u ≠ none) :
    loc' u ≠ none := by
  cases h with
  | @mk t p permitted =>
    by_cases same : u = t
    · rw [same, hand_same]
      exact Option.some_ne_none p
    · rwa [hand_other loc same]

/-- And so over any number of handovers. -/
theorem Handovers.inside (h : Handovers route loc loc') {u : τ} (hu : loc u ≠ none) :
    loc' u ≠ none := by
  induction h with
  | refl => exact hu
  | tail _ move ih => exact move.inside ih

/-- A place no route leads out of keeps what it has. -/
theorem Handover.stays (h : Handover route loc loc') {p : π} (final : ∀ q, ¬ route (some p) q)
    {u : τ} (hu : loc u = some p) : loc' u = some p := by
  cases h with
  | @mk t q permitted =>
    by_cases same : u = t
    · rw [← same, hu] at permitted
      exact absurd permitted (final q)
    · rwa [hand_other loc same]

/-- And so over any number of handovers. -/
theorem Handovers.stays (h : Handovers route loc loc') {p : π} (final : ∀ q, ¬ route (some p) q)
    {u : τ} (hu : loc u = some p) : loc' u = some p := by
  induction h with
  | refl => exact hu
  | tail _ move ih => exact move.stays final ih

/-- **The step of a refinement**: counts that lose the token where it was and gain it where it
goes, and are otherwise as they were, tally after the handover. -/
theorem Tallies.handed [DecidableEq π] {held held' : π → τ → Nat} (h : Tallies held loc) {t : τ}
    {q : π}
    (moved : ∀ p u, held' p u + (if t = u ∧ loc t = some p then 1 else 0)
      = held p u + if t = u ∧ q = p then 1 else 0) :
    Tallies held' (hand loc t q) := by
  intro p u
  have count := moved p u
  rw [h p u] at count
  by_cases same : t = u
  · subst same
    simp only [true_and] at count
    have counted : held' p t = if q = p then 1 else 0 := by omega
    rw [counted, hand_same]
    simp only [Option.some.injEq]
  · rw [hand_other loc (Ne.symm same)]
    simp only [same, false_and, if_false] at count
    exact count

end Custody
