import Mathlib.Algebra.BigOperators.Group.List.Basic
import Mathlib.Data.List.Induction

/-!
# Machines that answer events with actions

A machine takes one event at a time, moves to its next state and emits a list of
actions. A run is a list of events: `state` is where it ends, `trace` is everything
it emitted, in order. Every question about a run is a question about those two.

Six rules carry the proofs of a development built on such a machine:

* `invariant` — what holds of the initial state and the empty trace, and is kept by
  every step, holds of every run;
* `balance` — a quantity that every step moves by what the event brings in less what
  the actions carry out is accounted for over every run;
* `simulates` — a step that another machine answers with a list of its own events is
  answered so over every run;
* `refines` — a step that is, as far as a part of the state goes, a list of another
  machine's events is so over every run, actions included;
* `completes` — where there is always an event that takes a measure down, a run of no more
  events than the measure brings the machine to its end;
* `noninterference` — events that change nothing related states show may be put into a run
  anywhere, and the others are answered as they were.

`Chain` splits one step into finer moves. A step is often several moves of the same
few kinds (a loop of a callback, a reply after a send), and an invariant is then
checked against the kinds and not against the callbacks: `invariant_of_chain`.
-/

namespace Mealy

universe u v w

/-- A machine: in a state, an event is answered by the next state and the actions emitted
on the way. -/
structure Machine (σ : Type u) (ε : Type v) (α : Type w) where
  step : σ → ε → σ × List α

/-! ## Chains of finer moves -/

/-- Moves of the relation `R` one after the other, with what they emit in order. -/
inductive Chain {σ : Type u} {α : Type w} (R : σ → List α → σ → Prop) :
    σ → List α → σ → Prop
  | nil (s : σ) : Chain R s [] s
  | cons {s s' s'' : σ} {as bs : List α} :
      R s as s' → Chain R s' bs s'' → Chain R s (as ++ bs) s''

namespace Chain

variable {σ : Type u} {α : Type w} {R : σ → List α → σ → Prop}

/-- One move is a chain. -/
theorem single {s s' : σ} {as : List α} (h : R s as s') : Chain R s as s' := by
  have chain := Chain.cons h (.nil s')
  rwa [List.append_nil] at chain

/-- A chain followed by a chain is a chain. -/
theorem append {s s' s'' : σ} {as bs : List α} (h : Chain R s as s') (k : Chain R s' bs s'') :
    Chain R s (as ++ bs) s'' := by
  induction h with
  | nil => exact k
  | cons move _ ih =>
    rw [List.append_assoc]
    exact .cons move (ih k)

/-- Two moves are a chain. -/
theorem pair {s s' s'' : σ} {as bs : List α} (h : R s as s') (k : R s' bs s'') :
    Chain R s (as ++ bs) s'' :=
  .cons h (.single k)

/-- A move that emits nothing may come before a chain. -/
theorem after_silent {s s' s'' : σ} {bs : List α} (k : Chain R s' bs s'') (h : R s [] s') :
    Chain R s bs s'' :=
  .cons h k

/-- What every move keeps, a chain keeps. -/
theorem invariant (Inv : σ → List α → Prop)
    (keep : ∀ {s s' as tr}, R s as s' → Inv s tr → Inv s' (tr ++ as))
    {s s' : σ} {as tr : List α} (h : Chain R s as s') (hinv : Inv s tr) : Inv s' (tr ++ as) := by
  induction h generalizing tr with
  | nil => rwa [List.append_nil]
  | cons move _ ih =>
    rw [← List.append_assoc]
    exact ih (keep move hinv)

/-- The same of what is about the state alone. -/
theorem preserves (P : σ → Prop) (keep : ∀ {s s' as}, R s as s' → P s → P s')
    {s s' : σ} {as : List α} (h : Chain R s as s') (hs : P s) : P s' :=
  @invariant _ _ _ (fun s _ => P s) keep _ _ _ [] h hs

end Chain

namespace Machine

variable {σ : Type u} {ε : Type v} {α : Type w} (M : Machine σ ε α)

/-! ## Runs -/

/-- The state a run ends in. -/
def state (s : σ) (es : List ε) : σ := es.foldl (fun s e => (M.step s e).1) s

/-- Everything a run emits, in order. -/
def trace (s : σ) : List ε → List α
  | [] => []
  | e :: es => (M.step s e).2 ++ trace (M.step s e).1 es

@[simp] theorem state_nil (s : σ) : M.state s [] = s := rfl

@[simp] theorem state_cons (s : σ) (e : ε) (es : List ε) :
    M.state s (e :: es) = M.state (M.step s e).1 es := rfl

@[simp] theorem trace_nil (s : σ) : M.trace s [] = [] := rfl

@[simp] theorem trace_cons (s : σ) (e : ε) (es : List ε) :
    M.trace s (e :: es) = (M.step s e).2 ++ M.trace (M.step s e).1 es := rfl

/-- A run continues from where its first part ended. -/
theorem state_append (s : σ) (es fs : List ε) :
    M.state s (es ++ fs) = M.state (M.state s es) fs := List.foldl_append

/-- And emits what its first part emitted, then what the second part does. -/
theorem trace_append (s : σ) (es fs : List ε) :
    M.trace s (es ++ fs) = M.trace s es ++ M.trace (M.state s es) fs := by
  induction es generalizing s with
  | nil => rfl
  | cons e es ih => simp only [List.cons_append, trace_cons, ih, List.append_assoc, state_cons]

/-- A run and one event more. -/
theorem state_snoc (s : σ) (es : List ε) (e : ε) :
    M.state s (es ++ [e]) = (M.step (M.state s es) e).1 := M.state_append s es [e]

theorem trace_snoc (s : σ) (es : List ε) (e : ε) :
    M.trace s (es ++ [e]) = M.trace s es ++ (M.step (M.state s es) e).2 := by
  rw [trace_append, trace_cons, trace_nil, List.append_nil]

/-! ## The invariant rule -/

/-- A relation of state and trace kept by every step is kept by every run. -/
theorem keeps (Inv : σ → List α → Prop)
    (keep : ∀ s tr e, Inv s tr → Inv (M.step s e).1 (tr ++ (M.step s e).2))
    (es : List ε) {s : σ} {tr : List α} (hinv : Inv s tr) :
    Inv (M.state s es) (tr ++ M.trace s es) := by
  induction es generalizing s tr with
  | nil => rwa [trace_nil, List.append_nil]
  | cons e es ih =>
    rw [trace_cons, ← List.append_assoc]
    exact ih (keep s tr e hinv)

/-- **The invariant rule**: it holds at the start and every step keeps it, so it holds after
every run. -/
theorem invariant (Inv : σ → List α → Prop) {s₀ : σ} (start : Inv s₀ [])
    (keep : ∀ s tr e, Inv s tr → Inv (M.step s e).1 (tr ++ (M.step s e).2))
    (es : List ε) : Inv (M.state s₀ es) (M.trace s₀ es) :=
  M.keeps Inv keep es start

/-- The invariant rule over finer moves: when every step is a chain of moves, those its event
permits, it is enough that every move keeps the relation. -/
theorem invariant_of_chain {R : ε → σ → List α → σ → Prop} (Inv : σ → List α → Prop) {s₀ : σ}
    (fine : ∀ s e, Chain (R e) s (M.step s e).2 (M.step s e).1) (start : Inv s₀ [])
    (keep : ∀ {e s s' as tr}, R e s as s' → Inv s tr → Inv s' (tr ++ as))
    (es : List ε) : Inv (M.state s₀ es) (M.trace s₀ es) :=
  M.invariant Inv start (fun s _ e hinv => (fine s e).invariant Inv keep hinv) es

/-! ## The balance rule -/

section Balance

variable {G : Type*} [AddCommMonoid G]

/-- What the events of a run bring in, each weighed in the state that receives it. -/
def income (weigh : σ → ε → G) (s : σ) : List ε → G
  | [] => 0
  | e :: es => weigh s e + income weigh (M.step s e).1 es

/-- **The balance rule**: if every step leaves the stock, with what the actions carried out,
equal to the stock before with what the event brought in, then so does every run. -/
theorem balance {stock : σ → G} {out : α → G} {weigh : σ → ε → G}
    (step : ∀ s e, stock (M.step s e).1 + ((M.step s e).2.map out).sum = stock s + weigh s e)
    (s : σ) (es : List ε) :
    stock (M.state s es) + ((M.trace s es).map out).sum = stock s + M.income weigh s es := by
  induction es generalizing s with
  | nil => simp only [state_nil, trace_nil, List.map_nil, List.sum_nil, income]
  | cons e es ih =>
    have rest := ih (M.step s e).1
    calc stock (M.state s (e :: es)) + ((M.trace s (e :: es)).map out).sum
        = (stock (M.state (M.step s e).1 es) + ((M.trace (M.step s e).1 es).map out).sum)
            + ((M.step s e).2.map out).sum := by
          rw [trace_cons, List.map_append, List.sum_append, state_cons, add_assoc,
            add_comm ((M.trace (M.step s e).1 es).map out).sum]
      _ = (stock (M.step s e).1 + ((M.step s e).2.map out).sum)
            + M.income weigh (M.step s e).1 es := by rw [rest, add_right_comm]
      _ = stock s + M.income weigh s (e :: es) := by rw [step, income, add_assoc]

end Balance

/-! ## The simulation rule -/

/-- **The simulation rule**: when every step of `M` is answered by a list of events of `N`, every
run of `M` is answered by a run of `N`. -/
theorem simulates {τ δ β : Type*} {N : Machine τ δ β} {R : σ → τ → Prop}
    (answer : ∀ s t e, R s t → ∃ ds, R (M.step s e).1 (N.state t ds))
    (es : List ε) {s : σ} {t : τ} (h : R s t) : ∃ ds, R (M.state s es) (N.state t ds) := by
  induction es generalizing s t with
  | nil => exact ⟨[], h⟩
  | cons e es ih =>
    obtain ⟨ds, hds⟩ := answer s t e h
    obtain ⟨ds', hds'⟩ := ih hds
    exact ⟨ds ++ ds', by rwa [N.state_append]⟩

/-! ## The refinement rule -/

/-- The events of another machine that the steps of a run stand for. -/
def project {δ : Type*} (view : σ → ε → List δ) (s : σ) : List ε → List δ
  | [] => []
  | e :: es => view s e ++ project view (M.step s e).1 es

/-- **The refinement rule**: when every step is, on a part of the state and in what it emits, the
events of `N` it stands for, then so is every run. -/
theorem refines {τ δ : Type*} {N : Machine τ δ α} {part : σ → τ} {view : σ → ε → List δ}
    (step : ∀ s e, part (M.step s e).1 = N.state (part s) (view s e) ∧
      (M.step s e).2 = N.trace (part s) (view s e))
    (s : σ) (es : List ε) :
    part (M.state s es) = N.state (part s) (M.project view s es) ∧
      M.trace s es = N.trace (part s) (M.project view s es) := by
  induction es generalizing s with
  | nil => exact ⟨rfl, rfl⟩
  | cons e es ih =>
    obtain ⟨state, emits⟩ := step s e
    obtain ⟨states, trace⟩ := ih (M.step s e).1
    rw [project, N.state_append, N.trace_append, ← state]
    exact ⟨states, by rw [trace_cons, emits, trace]⟩

/-! ## The progress rule -/

/-- **The progress rule**: when from every state of `Inv` that is not done some event that is
allowed takes the measure down and stays in `Inv`, a state of `Inv` is done after at most its
measure of such events. -/
theorem completes {Inv done : σ → Prop} {allowed : ε → Prop} {measure : σ → Nat}
    (progress : ∀ s, Inv s → ¬ done s →
      ∃ e, allowed e ∧ Inv (M.step s e).1 ∧ measure (M.step s e).1 < measure s)
    {s : σ} (inv : Inv s) :
    ∃ es, es.length ≤ measure s ∧ (∀ e ∈ es, allowed e) ∧ done (M.state s es) := by
  induction size : measure s using Nat.strongRecOn generalizing s with
  | ind k ih =>
    by_cases finished : done s
    · exact ⟨[], Nat.zero_le _, fun _ mem => absurd mem List.not_mem_nil, finished⟩
    · obtain ⟨e, can, keeps, less⟩ := progress s inv finished
      obtain ⟨es, short, allowed, ends⟩ := ih _ (size ▸ less) keeps rfl
      refine ⟨e :: es, ?_, ?_, ends⟩
      · rw [List.length_cons]
        omega
      · intro e' mem
        rcases List.mem_cons.mp mem with rfl | later
        · exact can
        · exact allowed e' later

/-! ## The noninterference rule -/

/-- What each event of a run is answered. -/
def answers (s : σ) : List ε → List (List α)
  | [] => []
  | e :: es => (M.step s e).2 :: answers (M.step s e).1 es

/-- The events of a run that are its own, `false` marking those that were put in. -/
def ownEvents (es : List (Bool × ε)) : List ε := (es.filter (·.1)).map (·.2)

/-- What the events of its own are answered when the others are put in. -/
def ownAnswers (s : σ) : List (Bool × ε) → List (List α)
  | [] => []
  | (true, e) :: es => (M.step s e).2 :: ownAnswers (M.step s e).1 es
  | (false, e) :: es => ownAnswers (M.step s e).1 es

/-- What is put into a run is idle where it is put. -/
def IdleInserts (idle : σ → ε → Prop) (s : σ) : List (Bool × ε) → Prop
  | [] => True
  | (own, e) :: es => (own = false → idle s e) ∧ IdleInserts idle (M.step s e).1 es

/-- **The noninterference rule**: when related states answer an event alike and stay related, and
an idle event leaves a state related to what it was related to, then idle events put into a run
change no answer of the others, as far as it is watched. -/
theorem noninterference {β : Type*} {R : σ → σ → Prop} {idle : σ → ε → Prop}
    (watch : List α → β)
    (same : ∀ s t e, R s t →
      R (M.step s e).1 (M.step t e).1 ∧ watch (M.step s e).2 = watch (M.step t e).2)
    (silent : ∀ s t e, R s t → idle s e → R (M.step s e).1 t)
    (es : List (Bool × ε)) {s t : σ} (h : R s t) (inserts : M.IdleInserts idle s es) :
    (M.ownAnswers s es).map watch = (M.answers t (ownEvents es)).map watch := by
  induction es generalizing s t with
  | nil => rfl
  | cons e es ih =>
    obtain ⟨own, e⟩ := e
    obtain ⟨first, rest⟩ := inserts
    cases own with
    | true =>
      obtain ⟨related, alike⟩ := same s t e h
      exact congrArg₂ List.cons alike (ih related rest)
    | false => exact ih (silent s t e h (first rfl)) rest

end Machine

end Mealy
