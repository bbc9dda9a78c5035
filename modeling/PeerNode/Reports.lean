import Mathlib.Algebra.Order.BigOperators.Group.Finset
import Mathlib.Algebra.Order.Ring.Int
import PeerNode.Classification

/-!
# The reports of the statistics timer

A report is built one exchange at a time, and posted when it is full. Two things are said of
it here, and both are said of every interleaving.

What a report takes is gone from the shared counters, whatever becomes of the report: a post
that fails leaves what a post that succeeds leaves (`failed_post_loses_its_report`).

A report is no snapshot. A merge adds `total` first and the classes after it, and a report
takes `total` first and the classes after it, so a report that falls between the additions of
a merge has taken a `total` without them, and the next one takes them without their `total`.
Over all reports the classes stay behind `total` (`surplus`), because a merge owes classes it
has counted in `total` and never the other way round. A single report does when no merge was
halfway while it was built, nor while the one before it was (`Undisturbed`): what the report
before it left behind is `Ahead`, and from there the report is `Fair`.
-/

namespace PeerNode

open Mealy

variable {TX : Type} (env : Env TX) {n : Nat}

/-! ## What a report takes -/

/-- What a deed reports of a counter, in a post that answered `sent`. -/
def Deed.reports (sent : Bool) (f : Field) : Deed n → Int
  | .posted report answer => if answer = sent then report.get f else 0
  | _ => 0

/-- What the report that is being built has taken of a counter. -/
def StatsThread.taken (f : Field) : StatsThread → Int
  | .idle => 0
  | .draining rest report => if f ∈ rest then 0 else report.get f

@[simp] theorem taken_draining (f : Field) (rest : List Field) (report : Counters Int) :
    (StatsThread.draining rest report).taken f = if f ∈ rest then 0 else report.get f := rfl

/-- An exchange takes one counter. -/
theorem taken_exchanged {f : Field} {rest : List Field} (new : f ∉ rest)
    (report : Counters Int) (value : Int) (g : Field) :
    (StatsThread.draining rest (report.set f value)).taken g
      = (StatsThread.draining (f :: rest) report).taken g + if g = f then value else 0 := by
  by_cases same : g = f
  · subst same
    simp only [taken_draining, if_neg new, List.mem_cons_self, if_true, Counters.get_set_same,
      Int.zero_add]
  · simp only [taken_draining, List.mem_cons, same, false_or, if_false, Int.add_zero,
      Counters.get_set_other _ same]

/-- The counters are taken in their order. -/
def StatsThread.Ordered : StatsThread → Prop
  | .idle => True
  | .draining rest _ => rest <:+ Field.all

variable {env} {s s' : Process n} {e : Turn n} {deeds : List (Deed n)}

theorem turned_ordered (h : Turned env s e deeds s') (ordered : s.stats.Ordered) :
    s'.stats.Ordered := by
  cases h with
  | ticked idle => exact List.suffix_rfl
  | exchanged draining =>
    rw [draining] at ordered
    exact (List.suffix_cons _ _).trans ordered
  | reported full => trivial
  | summed threads stats counters =>
    rw [stats]
    exact ordered
  | _ => exact ordered

/-- What is drained goes into the report, and what is in the report into the post. -/
theorem turned_reports (sends : env.config.statsSend = true) (f : Field)
    (h : Turned env s e deeds s') (ordered : s.stats.Ordered) :
    s'.stats.taken f + (deeds.map (Deed.reports true f)).sum
        + (deeds.map (Deed.reports false f)).sum
      = s.stats.taken f + (deeds.map (Deed.drains f)).sum := by
  cases h with
  | called free =>
    rw [sum_worker (fun _ _ => rfl), sum_worker (fun _ _ => rfl), sum_worker (fun _ _ => rfl)]
    exact Int.add_zero _
  | ticked idle =>
    show (StatsThread.draining Field.all .zero).taken f + 0 + 0 = s.stats.taken f + 0
    rw [taken_draining, if_pos (Field.mem_all f), idle]
    rfl
  | @exchanged posted g rest report draining =>
    rw [draining] at ordered
    have new : g ∉ rest := (List.nodup_cons.mp (ordered.sublist.nodup Field.nodup_all)).1
    show (StatsThread.draining rest (report.set g (s.globalCounters.get g))).taken f + 0 + 0
      = s.stats.taken f + ((if g = f then s.globalCounters.get g else 0) + 0)
    rw [taken_exchanged new, draining]
    simp only [Int.add_zero, eq_comm]
  | @reported posted report full =>
    have six : Counters.get { report with queue := s.globalCounters.queue } f = report.get f := by
      cases f <;> rfl
    rw [full, if_pos sends]
    simp only [List.map_cons, List.map_nil, List.sum_cons, List.sum_nil, Deed.reports,
      Deed.drains, StatsThread.taken, six, List.not_mem_nil, if_false]
    cases posted <;> simp
  | summed threads stats counters =>
    rw [stats]
    exact Int.add_zero _
  | _ => exact Int.add_zero _

/-- What was drained was reported, or is in the report that is being built. -/
def Reported (f : Field) (s : Process n) (tr : List (Deed n)) : Prop :=
  (tr.map (Deed.drains f)).sum
    = s.stats.taken f + (tr.map (Deed.reports true f)).sum + (tr.map (Deed.reports false f)).sum

/-- **Every run reports what it drains.** -/
theorem run_reported (sends : env.config.statsSend = true) (f : Field) (es : List (Turn n)) :
    ((process env n).state {} es).stats.Ordered ∧
      Reported f ((process env n).state {} es) ((process env n).trace {} es) := by
  refine (process env n).invariant (fun s tr => s.stats.Ordered ∧ Reported f s tr) ?_ ?_ es
  · exact ⟨trivial, rfl⟩
  · rintro s tr e ⟨ordered, reported⟩
    have turned := step_turned env s e
    have moved := turned_reports sends f turned ordered
    refine ⟨turned_ordered turned ordered, ?_⟩
    unfold Reported at reported ⊢
    simp only [List.map_append, List.sum_append]
    omega

/-! ## A post that fails -/

/-- The sum of the reports that were sent, of those that were not and of what is still to be
reported. -/
theorem reports_account (sends : env.config.statsSend = true) (f : Field) (es : List (Turn n)) :
    (((process env n).trace {} es).map (Deed.reports true f)).sum
        + ((process env n).state {} es).stats.taken f
        + ((process env n).state {} es).globalCounters.get f
        + ∑ i, (((process env n).state {} es).threads i).pending f
      = (process env n).income (increments env f) {} es
        - (((process env n).trace {} es).map (Deed.reports false f)).sum := by
  have balance := (process env n).balance (turn_balance env f) {} es
  have start : kept f ({} : Process n) = 0 := by simp [kept, Thread.pending]
  have drained := (run_reported sends f es).2
  unfold Reported at drained
  rw [start, kept] at balance
  omega

/-- **A post that fails loses its report, and no more.** What was sent, what is being reported,
what is shared and what the workers still owe fall short of what was counted by the reports whose
post failed; and a tick leaves the same whatever its post answers. -/
theorem failed_post_loses_its_report (sends : env.config.statsSend = true) (f : Field)
    (es : List (Turn n)) :
    (((process env n).trace {} es).map (Deed.reports true f)).sum
          + ((process env n).state {} es).stats.taken f
          + ((process env n).state {} es).globalCounters.get f
          + ∑ i, (((process env n).state {} es).threads i).pending f
        = (process env n).income (increments env f) {} es
          - (((process env n).trace {} es).map (Deed.reports false f)).sum ∧
      ∀ s : Process n, (s.statsTick env false).1 = (s.statsTick env true).1 := by
  refine ⟨reports_account sends f es, ?_⟩
  intro s
  unfold Process.statsTick
  split <;> rfl

/-- One request to one worker, its flush, and a tick of the statistics timer. -/
def reportedOnce (posted : Bool) : List (Turn 1) :=
  [.call 0 (.request "" .refused), .updateCounters 0] ++ List.replicate 7 (.merge 0)
    ++ List.replicate 8 (.stats posted)

/-- A report that is lost and one that is not. -/
def reportedTwice : List (Turn 1) := reportedOnce false ++ reportedOnce true

theorem failed_post_loses_its_report_once :
    (((process (.plain {}) 1).trace {} reportedTwice).map (Deed.reports true .total)).sum
          + ((process (.plain {}) 1).state {} reportedTwice).stats.taken .total
          + ((process (.plain {}) 1).state {} reportedTwice).globalCounters.get .total
          + ∑ i, (((process (.plain {}) 1).state {} reportedTwice).threads i).pending .total
        = (process (.plain {}) 1).income (increments (.plain {}) .total) {} reportedTwice
          - (((process (.plain {}) 1).trace {} reportedTwice).map
            (Deed.reports false .total)).sum ∧
      ∀ s : Process 1, (s.statsTick (.plain {}) false).1 = (s.statsTick (.plain {}) true).1 :=
  failed_post_loses_its_report rfl .total reportedTwice

/-- The request of `reportedOnce` is lost with its report. -/
theorem failed_post_forgets :
    ¬ ∀ (TX : Type) (env : Env TX) (n : Nat) (f : Field) (es : List (Turn n)),
      env.config.statsSend = true → ((process env n).state {} es).stats = .idle →
        (((process env n).trace {} es).map (Deed.reports true f)).sum
            + ((process env n).state {} es).globalCounters.get f
            + ∑ i, (((process env n).state {} es).threads i).pending f
          = (process env n).income (increments env f) {} es := by
  intro always
  have kept_all := always Bytes (.plain {}) 1 .total (reportedOnce false) rfl rfl
  have account := @reports_account _ (.plain {}) 1 rfl .total (reportedOnce false)
  have taken : ((process (.plain {}) 1).state {} (reportedOnce false)).stats.taken .total = 0 :=
    rfl
  have lost : (((process (.plain {}) 1).trace {} (reportedOnce false)).map
      (Deed.reports false .total)).sum = 1 := by decide
  omega

/-! ## A report beside the merges -/

/-- What is counted of the fields that are left, and nothing of the others. -/
def owed (rest : List Field) (count : Field → Int) (f : Field) : Int :=
  if f ∈ rest then count f else 0

theorem owed_cons {f : Field} {rest : List Field} (new : f ∉ rest) (count : Field → Int) :
    owed (f :: rest) count = fun g => owed rest count g + if g = f then count f else 0 := by
  ext g
  unfold owed
  by_cases same : g = f
  · subst same
    rw [if_pos List.mem_cons_self, if_neg new, if_pos rfl, Int.zero_add]
  · simp only [List.mem_cons, same, false_or, if_false, Int.add_zero]

theorem owed_set {f : Field} {rest : List Field} (new : f ∉ rest) (c : Counters Int)
    (value : Int) : owed rest (c.set f value).get = owed rest c.get := by
  ext g
  unfold owed
  by_cases mem : g ∈ rest
  · have other : g ≠ f := fun same => new (same ▸ mem)
    rw [if_pos mem, if_pos mem, Counters.get_set_other c other]
  · rw [if_neg mem, if_neg mem]

theorem classified_one (f : Field) (value : Int) :
    classified (fun g => if g = f then value else 0) = if f = .total then 0 else value := by
  cases f <;> simp [classified]

theorem classified_mono {u v : Field → Int} (le : ∀ f, u f ≤ v f) :
    classified u ≤ classified v := by
  have trash := le .trash
  have noReq := le .noReq
  have inv := le .inv
  have invSign := le .invSign
  have success := le .success
  unfold classified
  omega

theorem owed_nonneg {count : Field → Int} (nonneg : ∀ f, 0 ≤ count f) (rest : List Field)
    (f : Field) : 0 ≤ owed rest count f := by
  unfold owed
  split
  · exact nonneg f
  · exact Int.le_refl 0

theorem owed_le {count : Field → Int} (nonneg : ∀ f, 0 ≤ count f) (rest : List Field)
    (f : Field) : owed rest count f ≤ count f := by
  unfold owed
  split
  · exact Int.le_refl _
  · exact nonneg f

/-- The classes of a merge whose `total` is added and they are not. -/
def Thread.lead : Thread → Int
  | .looping _ => 0
  | .merging w rest _ _ =>
    if .total ∈ rest then 0 else classified (owed rest w.counters.get)

/-- The additions are made in their order. -/
def Thread.Ordered : Thread → Prop
  | .looping _ => True
  | .merging _ rest _ _ => rest <:+ Field.all

/-- By how much `total` is ahead of the classes, once the merges are through. -/
def surplus (s : Process n) : Int :=
  s.globalCounters.get .total - classified s.globalCounters.get - ∑ i, (s.threads i).lead

/-- By how much a deed drains more of `total` than of the classes. -/
def Deed.skew (d : Deed n) : Int := d.drains .total - classified fun f => d.drains f

/-- What every turn keeps: the counters of the workers are partitioned, and the additions and the
exchanges come in their order. -/
structure Sound (s : Process n) : Prop where
  partitioned : ∀ i, ∃ refused, Partitioned (s.threads i).worker.counters refused
  threads : ∀ i, (s.threads i).Ordered
  stats : s.stats.Ordered

/-- The first of what is left is `total`, or `total` is not left. -/
theorem total_not_mem {f : Field} {rest : List Field} (ordered : (f :: rest) <:+ Field.all) :
    .total ∉ rest := by
  rcases List.suffix_cons_iff.mp ordered with whole | later
  · obtain ⟨rfl, rfl⟩ := List.cons.inj whole
    decide
  · intro mem
    have late : .total ∈ [Field.trash, .noReq, .inv, .invSign, .success] :=
      later.subset (List.mem_cons_of_mem f mem)
    exact absurd late (by decide)

/-! ### Every turn is sound -/

/-- The thread that is at work, with what is known of it. -/
theorem Sound.at (sound : Sound s) {i : Fin n} {t : Thread} (there : s.threads i = t) :
    (∃ refused, Partitioned t.worker.counters refused) ∧ t.Ordered := by
  subst there
  exact ⟨sound.partitioned i, sound.threads i⟩

theorem ordered_setThread (ordered : ∀ i, (s.threads i).Ordered) {i : Fin n} {t : Thread}
    (new : t.Ordered) (j : Fin n) : ((s.setThread i t).threads j).Ordered := by
  by_cases same : j = i
  · subst same
    rwa [Process.setThread_same]
  · rw [Process.setThread_other s same]
    exact ordered j

theorem turned_threads_ordered (h : Turned env s e deeds s')
    (ordered : ∀ i, (s.threads i).Ordered) : ∀ i, (s'.threads i).Ordered := by
  cases h with
  | called free => exact ordered_setThread ordered trivial
  | @begun i w free once counted =>
    have stored : ∀ j, ((s.setQueue i w.backlog).threads j).Ordered := ordered
    exact ordered_setThread stored List.suffix_rfl
  | @added i w f rest once counted owes =>
    have before := ordered i
    rw [owes] at before
    exact ordered_setThread ordered ((List.suffix_cons f rest).trans before)
  | cleared owes => exact ordered_setThread ordered trivial
  | summed threads stats counters =>
    rw [threads]
    exact ordered
  | _ => exact ordered

theorem turned_sound (h : Turned env s e deeds s') (sound : Sound s) : Sound s' where
  partitioned i := by
    obtain ⟨refused, parts⟩ := sound.partitioned i
    rcases turned_worker env h i with same | ⟨c, -, called⟩ | ⟨-, flushed⟩
    · rw [same]
      exact ⟨refused, parts⟩
    · rw [called]
      exact ⟨_, parts.step env (.call c)⟩
    · rw [flushed]
      exact ⟨_, parts.updateCounters⟩
  threads := turned_threads_ordered h sound.threads
  stats := turned_ordered h sound.stats

theorem surplus_setThread (s : Process n) (i : Fin n) (t : Thread) :
    surplus (s.setThread i t) = surplus s + ((s.threads i).lead - t.lead) := by
  rw [surplus, surplus, sum_setThread, Process.setThread_globalCounters]
  omega

theorem surplus_setGlobal (s : Process n) (g : GlobalCounters) :
    surplus (s.setGlobal g) = surplus s + (g.get .total - s.globalCounters.get .total)
      - (classified g.get - classified s.globalCounters.get) := by
  rw [surplus, surplus, Process.setGlobal_threads, Process.setGlobal_globalCounters]
  omega

theorem classified_mergeField (loc : LocalCounters) (f : Field) (glob : GlobalCounters) :
    classified (mergeField loc f glob).get
      = classified glob.get + if f = .total then 0 else loc.get f := by
  rw [funext (get_mergeField loc glob f), classified_add, classified_one]

theorem classified_set_zero (c : Counters Int) (f : Field) :
    classified (c.set f 0).get = classified c.get - if f = .total then 0 else c.get f := by
  cases f <;> simp only [classified, Counters.get, Counters.set] <;> simp <;> omega

/-- An addition keeps `total` as far ahead, or brings it further. -/
theorem added_surplus (sound : Sound s) {i : Fin n} {w : Worker} {f : Field} {rest : List Field}
    {once : (f :: rest).Nodup} {counted : w.counters.total ≠ 0}
    (owes : s.threads i = .merging w (f :: rest) once counted) :
    surplus s ≤ surplus ((s.setThread i (.merging w rest once.of_cons counted)).setGlobal
      (mergeField w.counters f s.globalCounters)) := by
  obtain ⟨⟨refused, parts⟩, ordered⟩ := sound.at owes
  have left : .total ∉ rest := total_not_mem ordered
  have new : f ∉ rest := (List.nodup_cons.mp once).1
  have before : (s.threads i).lead
      = if .total ∈ f :: rest then 0 else classified (owed (f :: rest) w.counters.get) := by
    rw [owes]
    rfl
  rw [surplus_setGlobal, surplus_setThread, Process.setThread_globalCounters,
    classified_mergeField, get_mergeField, before]
  simp only [Thread.lead, if_neg left, owed_cons new, classified_add, classified_one]
  by_cases first : f = .total
  · subst first
    have split := parts.split
    have later := classified_mono (owed_le parts.nonneg rest)
    simp only [Thread.worker] at split later
    simp only [List.mem_cons_self, if_true]
    omega
  · have other : .total ∉ f :: rest := by
      rintro (_ | ⟨_, mem⟩)
      · exact first rfl
      · exact left mem
    simp only [if_neg other, if_neg first, if_neg (Ne.symm first)]
    omega

/-- What an exchange leaves. -/
def Process.exchange (s : Process n) (f : Field) (rest : List Field) (report : Counters Int) :
    Process n :=
  { s.setGlobal (s.globalCounters.set f 0) with
    stats := .draining rest (report.set f (s.globalCounters.get f)) }

theorem surplus_exchange (s : Process n) (f : Field) (rest : List Field)
    (report : Counters Int) : surplus (s.exchange f rest report)
      = surplus s - if f = .total then s.globalCounters.get f else -s.globalCounters.get f := by
  show surplus (s.setGlobal (s.globalCounters.set f 0)) = _
  rw [surplus_setGlobal, classified_set_zero]
  by_cases first : f = .total
  · subst first
    rw [Counters.get_set_same, if_pos rfl, if_pos rfl]
    omega
  · rw [Counters.get_set_other _ (Ne.symm first), if_neg first, if_neg first]
    omega

theorem skew_drained (f : Field) (value : Int) :
    (Deed.drained f value : Deed n).skew = if f = .total then value else -value := by
  cases f <;> simp [Deed.skew, Deed.drains, classified]

/-- **No turn takes more of the classes than of `total`**, what is owed included. -/
theorem turned_surplus (h : Turned env s e deeds s') (sound : Sound s) :
    surplus s ≤ surplus s' + (deeds.map Deed.skew).sum := by
  cases h with
  | nothing busy => exact (Int.add_zero _).ge
  | called free =>
    rw [sum_worker (fun _ _ => rfl), surplus_setThread, free]
    show surplus s ≤ surplus s + (0 - 0) + 0
    omega
  | stored free => exact (Int.add_zero _).ge
  | @begun i w free once counted =>
    rw [surplus_setThread, Process.setQueue_threads, free]
    show surplus s ≤ surplus s + (0 - 0) + 0
    omega
  | added owes => exact (added_surplus sound owes).trans (Int.add_zero _).ge
  | cleared owes =>
    rw [surplus_setThread, owes]
    show surplus s ≤ surplus s + (0 - 0) + 0
    omega
  | ticked idle => exact (Int.add_zero _).ge
  | @exchanged posted f rest report draining =>
    show surplus s ≤ surplus (s.exchange f rest report) + ((Deed.drained f _ : Deed n).skew + 0)
    rw [skew_drained, surplus_exchange]
    split <;> omega
  | reported full =>
    split <;> exact (Int.add_zero _).ge
  | summed threads stats counters =>
    rw [surplus, surplus, threads, counters]
    exact (Int.add_zero _).ge

/-! ### All reports together -/

theorem lead_nonneg (sound : Sound s) (i : Fin n) : 0 ≤ (s.threads i).lead := by
  cases there : s.threads i with
  | looping w => exact Int.le_refl 0
  | merging w rest once counted =>
    obtain ⟨refused, parts⟩ := (sound.at there).1
    show 0 ≤ if Field.total ∈ rest then 0 else classified (owed rest w.counters.get)
    split
    · exact Int.le_refl 0
    · exact classified_mono (owed_nonneg parts.nonneg rest)

theorem sum_skew (deeds : List (Deed n)) :
    (deeds.map Deed.skew).sum = (deeds.map (Deed.drains .total)).sum
      - classified fun f => (deeds.map (Deed.drains f)).sum := by
  induction deeds with
  | nil => rfl
  | cons d deeds ih =>
    simp only [List.map_cons, List.sum_cons, ih, classified_add, Deed.skew]
    omega

theorem sound_start : Sound ({} : Process n) where
  partitioned _ := ⟨0, fun f => (Counters.get_zero f).ge, rfl⟩
  threads _ := trivial
  stats := trivial

theorem run_sound (es : List (Turn n)) : Sound ((process env n).state {} es) := by
  refine (process env n).invariant (fun s _ => Sound s) sound_start ?_ es
  intro s tr e sound
  exact turned_sound (step_turned env s e) sound

/-- **Over all reports the classes stay behind `total`**, with what is shared counted in. -/
theorem run_surplus (es : List (Turn n)) :
    0 ≤ surplus ((process env n).state {} es)
      + (((process env n).trace {} es).map Deed.skew).sum := by
  have run := (process env n).invariant
    (fun s tr => Sound s ∧ 0 ≤ surplus s + (tr.map Deed.skew).sum) ⟨sound_start, ?_⟩ ?_ es
  · exact run.2
  · simp [surplus, classified, Counters.zero, Counters.get, Thread.lead]
  · rintro s tr e ⟨sound, ahead⟩
    have turned := step_turned env s e
    have moved := turned_surplus turned sound
    refine ⟨turned_sound turned sound, ?_⟩
    rw [List.map_append, List.sum_append]
    omega

/-! ### Every report alone -/

/-- Some additions of a merge are made and some are not. -/
def Thread.Halfway : Thread → Prop
  | .looping _ => False
  | .merging _ rest _ _ => rest ≠ Field.all ∧ rest ≠ []

instance (t : Thread) : Decidable t.Halfway :=
  match t with
  | .looping _ => inferInstanceAs (Decidable False)
  | .merging _ rest _ _ => inferInstanceAs (Decidable (rest ≠ Field.all ∧ rest ≠ []))

/-- Some exchanges of a report are made and some are not. -/
def StatsThread.Halfway : StatsThread → Prop
  | .idle => False
  | .draining rest _ => rest ≠ Field.all ∧ rest ≠ []

instance (t : StatsThread) : Decidable t.Halfway :=
  match t with
  | .idle => inferInstanceAs (Decidable False)
  | .draining rest _ => inferInstanceAs (Decidable (rest ≠ Field.all ∧ rest ≠ []))

/-- A merge and a report are not both halfway. -/
def Apart (s : Process n) : Prop := s.stats.Halfway → ∀ i, ¬ (s.threads i).Halfway

instance (s : Process n) : Decidable (Apart s) :=
  inferInstanceAs (Decidable (s.stats.Halfway → ∀ i, ¬ (s.threads i).Halfway))

/-- What a report that has taken `total` is still to take. -/
def StatsThread.later : StatsThread → List Field
  | .idle => []
  | .draining rest _ => if .total ∈ rest then [] else rest

/-- The report to come will not have more of the classes than of `total`. -/
def Ahead (s : Process n) : Prop :=
  0 ≤ surplus s + classified (owed s.stats.later s.globalCounters.get)

/-- Neither will the report that is being built. -/
def Fair (s : Process n) : Prop :=
  classified (fun f => s.stats.taken f)
      + classified (owed s.stats.later s.globalCounters.get) ≤ s.stats.taken .total

theorem classified_owed_nil (count : Field → Int) : classified (owed [] count) = 0 := rfl

theorem halfway_of_later (later : s.stats.later ≠ []) : s.stats.Halfway := by
  cases stats : s.stats with
  | idle =>
    rw [stats] at later
    exact later rfl
  | draining rest report =>
    rw [stats] at later
    by_cases first : Field.total ∈ rest
    · exact absurd (if_pos first) later
    · refine ⟨?_, fun none => later ?_⟩
      · rintro rfl
        exact first (Field.mem_all _)
      · rw [none]
        rfl

/-- Threads that are not halfway owe no classes. -/
theorem lead_of_not_halfway {t : Thread} (whole : ¬ t.Halfway) : t.lead = 0 := by
  cases t with
  | looping w => rfl
  | merging w rest once counted =>
    by_cases all : rest = Field.all
    · subst all
      rfl
    · by_cases none : rest = []
      · subst none
        rfl
      · exact absurd ⟨all, none⟩ whole

/-- What brings `total` no closer to the classes, and the report nothing, leaves it ahead. -/
theorem Ahead.same (ahead : Ahead s) (stats : s'.stats = s.stats)
    (counters : classified (owed s.stats.later s'.globalCounters.get)
      = classified (owed s.stats.later s.globalCounters.get))
    (moved : surplus s ≤ surplus s') : Ahead s' := by
  unfold Ahead
  rw [stats, counters]
  exact ahead.trans (Int.add_le_add_right moved _)

/-- What moves neither the report nor what it is still to take leaves it fair. -/
theorem Fair.same (fair : Fair s) (stats : s'.stats = s.stats)
    (counters : classified (owed s.stats.later s'.globalCounters.get)
      = classified (owed s.stats.later s.globalCounters.get)) : Fair s' := by
  unfold Fair
  rw [stats, counters]
  exact fair

/-- An addition meets no report halfway. -/
theorem added_later {i : Fin n} {w : Worker} {f : Field} {rest : List Field}
    {once : (f :: rest).Nodup} {counted : w.counters.total ≠ 0}
    (owes : s.threads i = .merging w (f :: rest) once counted) (apart : Apart s)
    (apart' : Apart ((s.setThread i (.merging w rest once.of_cons counted)).setGlobal
      (mergeField w.counters f s.globalCounters))) : s.stats.later = [] := by
  by_contra later
  have halfway := halfway_of_later later
  have before := apart halfway i
  have after := apart' halfway i
  rw [owes] at before
  rw [Process.setGlobal_threads, Process.setThread_same] at after
  -- not halfway before it, the thread has all to add; not after it, it has nothing left
  have all : f :: rest = Field.all := by
    by_contra other
    exact before ⟨other, List.cons_ne_nil f rest⟩
  have nothing : rest = [] := by
    by_contra other
    refine after ⟨?_, other⟩
    intro same
    have lengths := congrArg List.length (all.trans same.symm)
    rw [List.length_cons] at lengths
    omega
  subst nothing
  exact absurd (congrArg List.length all) (by simp [Field.all])

/-! ### The exchange of `total` opens a report -/

/-- After `total` all classes are left. -/
theorem classes_left {rest : List Field} (ordered : (.total :: rest) <:+ Field.all) :
    rest = [.trash, .noReq, .inv, .invSign, .success] := by
  rcases List.suffix_cons_iff.mp ordered with all | later
  · exact (List.cons.inj all).2
  · exact absurd (later.subset List.mem_cons_self) (by decide)

section Opened

variable {rest : List Field} {report : Counters Int} (sound : Sound s)
  (draining : s.stats = .draining (.total :: rest) report)
  (apart' : Apart (s.exchange .total rest report))

include sound draining

theorem opened_left : rest = [.trash, .noReq, .inv, .invSign, .success] := by
  have ordered := sound.stats
  rw [draining] at ordered
  exact classes_left ordered

include apart'

/-- A report takes `total` when no merge is halfway, so no class is owed. -/
theorem opened_leads : ∑ i, (s.threads i).lead = 0 := by
  have halfway : (s.exchange .total rest report).stats.Halfway := by
    rw [opened_left sound draining]
    exact ⟨by decide, by decide⟩
  exact Finset.sum_eq_zero fun i _ => lead_of_not_halfway (apart' halfway i)

/-- From there on the next report is ahead, whatever was before: all that is shared of the classes
goes into this one. -/
theorem opened_ahead : Ahead (s.exchange .total rest report) := by
  have leads := opened_leads sound draining apart'
  unfold Ahead
  rw [surplus_exchange, if_pos rfl, surplus, leads, opened_left sound draining]
  show 0 ≤ _ + classified (s.globalCounters.set .total 0).get
  rw [classified_set_zero, if_pos rfl]
  omega

/-- And this one is fair, if it was ahead. -/
theorem opened_fair (ahead : Ahead s) : Fair (s.exchange .total rest report) := by
  have leads := opened_leads sound draining apart'
  have none : s.stats.later = [] := by
    rw [draining, StatsThread.later, if_pos List.mem_cons_self]
  unfold Ahead at ahead
  rw [none, classified_owed_nil, surplus, leads] at ahead
  unfold Fair
  rw [opened_left sound draining]
  show classified (fun _ => 0) + classified (s.globalCounters.set .total 0).get
    ≤ s.globalCounters.get .total
  rw [classified_set_zero, if_pos rfl]
  have zero : classified (fun _ => 0) = 0 := rfl
  omega

end Opened

/-! ### The other exchanges -/

section Exchanged

variable {f : Field} {rest : List Field} {report : Counters Int} (sound : Sound s)
  (other : f ≠ .total) (draining : s.stats = .draining (f :: rest) report)

include sound draining

theorem exchanged_new : f ∉ rest := by
  have ordered := sound.stats
  rw [draining] at ordered
  exact (List.nodup_cons.mp (ordered.sublist.nodup Field.nodup_all)).1

theorem exchanged_later : (s.exchange f rest report).stats.later = rest := by
  have ordered := sound.stats
  rw [draining] at ordered
  exact if_neg (total_not_mem ordered)

include other

theorem exchanging_later : s.stats.later = f :: rest := by
  have ordered := sound.stats
  rw [draining] at ordered
  rw [draining]
  refine if_neg ?_
  rintro (_ | ⟨_, mem⟩)
  · exact other rfl
  · exact total_not_mem ordered mem

/-- A class that is taken was counted as still to take. -/
theorem exchanged_ahead (ahead : Ahead s) : Ahead (s.exchange f rest report) := by
  have new := exchanged_new sound draining
  unfold Ahead at ahead ⊢
  rw [exchanging_later sound other draining, owed_cons new, classified_add, classified_one,
    if_neg other] at ahead
  rw [exchanged_later sound draining, surplus_exchange, if_neg other]
  show 0 ≤ _ + classified (owed rest (s.globalCounters.set f 0).get)
  rw [owed_set new]
  omega

theorem exchanged_fair (fair : Fair s) : Fair (s.exchange f rest report) := by
  have new := exchanged_new sound draining
  have taken : ∀ g, (s.exchange f rest report).stats.taken g
      = s.stats.taken g + if g = f then s.globalCounters.get f else 0 := by
    intro g
    rw [draining]
    exact taken_exchanged new report (s.globalCounters.get f) g
  unfold Fair at fair ⊢
  rw [exchanging_later sound other draining, owed_cons new, classified_add, classified_one,
    if_neg other] at fair
  rw [exchanged_later sound draining, funext taken, taken, if_neg (Ne.symm other),
    classified_add, classified_one, if_neg other]
  show _ + classified (owed rest (s.globalCounters.set f 0).get) ≤ _
  rw [owed_set new]
  omega

end Exchanged

/-! ### What one turn does to the reports -/

/-- The deed that opens a report. -/
def Deed.opens : Deed n → Bool
  | .drained f _ => decide (f = .total)
  | _ => false

/-- A turn opens one report, or none. -/
theorem turned_opens (h : Turned env s e deeds s') :
    deeds.countP Deed.opens = 0 ∨
      deeds.countP Deed.opens = 1 ∧ ∃ rest report, s.stats = .draining (.total :: rest) report ∧
        s' = s.exchange .total rest report := by
  cases h with
  | called free =>
    refine Or.inl (List.countP_eq_zero.mpr ?_)
    intro d mem
    obtain ⟨a, -, rfl⟩ := List.mem_map.mp mem
    exact Bool.false_ne_true
  | @exchanged posted f rest report draining =>
    by_cases first : f = .total
    · subst first
      exact Or.inr ⟨rfl, rest, report, draining, rfl⟩
    · refine Or.inl ?_
      rw [List.countP_singleton, if_neg]
      simpa [Deed.opens] using first
  | reported full =>
    left
    split <;> rfl
  | _ => exact Or.inl rfl

/-- **A turn leaves the next report ahead**, as long as it starts and ends with no merge and no
report both halfway. -/
theorem turned_ahead (h : Turned env s e deeds s') (sound : Sound s) (apart : Apart s)
    (apart' : Apart s') (ahead : Ahead s) : Ahead s' := by
  have moved := turned_surplus h sound
  cases h with
  | nothing busy => exact ahead
  | called free =>
    rw [sum_worker (fun _ _ => rfl), Int.add_zero] at moved
    exact ahead.same rfl rfl moved
  | stored free => exact ahead.same rfl rfl (moved.trans (Int.add_zero _).le)
  | begun free once counted => exact ahead.same rfl rfl (moved.trans (Int.add_zero _).le)
  | added owes =>
    refine ahead.same rfl ?_ (added_surplus sound owes)
    rw [added_later owes apart apart']
    rfl
  | cleared owes => exact ahead.same rfl rfl (moved.trans (Int.add_zero _).le)
  | ticked idle =>
    unfold Ahead at ahead
    rw [idle] at ahead
    exact ahead
  | @exchanged posted f rest report draining =>
    by_cases first : f = .total
    · subst first
      exact opened_ahead sound draining apart'
    · exact exchanged_ahead sound first draining ahead
  | reported full =>
    unfold Ahead at ahead
    rw [full] at ahead
    exact ahead
  | summed threads stats counters =>
    rw [List.map_nil, List.sum_nil, Int.add_zero] at moved
    refine ahead.same stats ?_ moved
    rw [counters]

/-- **A turn leaves the report fair** that is being built, if it opens none. -/
theorem turned_fair (h : Turned env s e deeds s') (sound : Sound s) (apart : Apart s)
    (apart' : Apart s') (unopened : deeds.countP Deed.opens = 0) (fair : Fair s) : Fair s' := by
  cases h with
  | nothing busy => exact fair
  | called free => exact fair.same rfl rfl
  | stored free => exact fair.same rfl rfl
  | begun free once counted => exact fair.same rfl rfl
  | added owes =>
    refine fair.same rfl ?_
    rw [added_later owes apart apart']
    rfl
  | cleared owes => exact fair.same rfl rfl
  | ticked idle => exact Int.le_refl 0
  | @exchanged posted f rest report draining =>
    have other : f ≠ .total := by
      rintro rfl
      exact Nat.one_ne_zero unopened
    exact exchanged_fair sound other draining fair
  | reported full => exact Int.le_refl 0
  | summed threads stats counters =>
    refine fair.same stats ?_
    rw [counters]

/-! ### A stretch of a run -/

/-- How many reports a run has opened. -/
def reportsBegun (env : Env TX) (es : List (Turn n)) : Nat :=
  ((process env n).trace {} es).countP Deed.opens

/-- No merge was halfway together with the last report or one of the `k` before it. -/
def Undisturbed (env : Env TX) (k : Nat) (es : List (Turn n)) : Prop :=
  ∀ before ∈ es.inits, reportsBegun env es ≤ reportsBegun env before + k →
    Apart ((process env n).state {} before)

instance (env : Env TX) (k : Nat) (es : List (Turn n)) : Decidable (Undisturbed env k es) :=
  inferInstanceAs (Decidable (∀ before ∈ es.inits,
    reportsBegun env es ≤ reportsBegun env before + k → Apart ((process env n).state {} before)))

theorem reportsBegun_snoc (es : List (Turn n)) (e : Turn n) :
    reportsBegun env (es ++ [e]) = reportsBegun env es
      + ((process env n).step ((process env n).state {} es) e).2.countP Deed.opens := by
  rw [reportsBegun, Machine.trace_snoc, List.countP_append, reportsBegun]

/-- Where nothing was halfway since the `j`th report was opened, it left the next one ahead, and
those after it are fair. With `j = 0` that is since the start, where all are. -/
theorem run_fair {j : Nat} (es : List (Turn n))
    (clear : ∀ before, before <+: es → j ≤ reportsBegun env before →
      Apart ((process env n).state {} before)) :
    (j ≤ reportsBegun env es → Ahead ((process env n).state {} es)) ∧
      (j < reportsBegun env es ∨ j = 0 → Fair ((process env n).state {} es)) := by
  induction es using List.reverseRecOn with
  | nil =>
    refine ⟨fun _ => ?_, fun _ => Int.le_refl 0⟩
    simp [Ahead, surplus, classified, owed, StatsThread.later, Counters.zero, Counters.get,
      Thread.lead]
  | append_singleton es e ih =>
    obtain ⟨ahead, fair⟩ := ih fun before part =>
      clear before (part.trans (List.prefix_append es [e]))
    have here := clear es (List.prefix_append es [e])
    have there := clear (es ++ [e]) List.prefix_rfl
    have turned := step_turned env ((process env n).state {} es) e
    rw [reportsBegun_snoc] at there ⊢
    rw [Machine.state_snoc] at there ⊢
    rcases turned_opens turned with none | ⟨one, rest, report, draining, state⟩
    · rw [none, Nat.add_zero] at there ⊢
      refine ⟨fun since => ?_, fun since => ?_⟩
      · exact turned_ahead turned (run_sound es) (here since) (there since) (ahead since)
      · have late : j ≤ reportsBegun env es := by omega
        exact turned_fair turned (run_sound es) (here late) (there late) none (fair since)
    · rw [one, state] at there ⊢
      refine ⟨fun since => ?_, fun since => ?_⟩
      · exact opened_ahead (run_sound es) draining (there since)
      · have late : j ≤ reportsBegun env es := by omega
        exact opened_fair (run_sound es) draining (there (by omega)) (ahead late)

/-- **The reports and the merges.** Whatever the interleaving, what all reports took of the classes
and what is shared of them stays behind what they took of `total` and what is shared of it. And a
report has no more of the classes than of `total` if no merge was halfway while it was, nor while
the one before it was: whatever became of all those before them. -/
theorem reports_behind_total (env : Env TX) (es : List (Turn n)) :
    (classified (fun f => (((process env n).trace {} es).map (Deed.drains f)).sum)
          + classified ((process env n).state {} es).globalCounters.get
        ≤ (((process env n).trace {} es).map (Deed.drains .total)).sum
          + ((process env n).state {} es).globalCounters.get .total) ∧
      (Undisturbed env 1 es → ∀ report,
        ((process env n).state {} es).stats = .draining [] report →
          classified report.get ≤ report.get .total) := by
  refine ⟨?_, ?_⟩
  · have ahead := @run_surplus _ env n es
    have leads : 0 ≤ ∑ i, (((process env n).state {} es).threads i).lead :=
      Finset.sum_nonneg fun i _ => lead_nonneg (run_sound es) i
    rw [sum_skew, surplus] at ahead
    omega
  · intro undisturbed report full
    have clear : ∀ before, before <+: es → reportsBegun env es - 1 ≤ reportsBegun env before →
        Apart ((process env n).state {} before) := by
      intro before part since
      exact undisturbed before ((List.mem_inits before es).mpr part) (by omega)
    have fair := (run_fair es clear).2 (by omega)
    unfold Fair at fair
    rw [full] at fair
    exact (Int.add_zero _).ge.trans fair

/-- A report that takes `total` before a merge adds to it, and the classes after. -/
def tornReport : List (Turn 1) :=
  [.call 0 (.request "" .refused), .updateCounters 0, .stats true, .stats true, .merge 0, .merge 0]
    ++ List.replicate 5 (.stats true)

/-- Such a report has a request that is trash and none at all. -/
theorem report_torn :
    ¬ ∀ (TX : Type) (env : Env TX) (n : Nat) (es : List (Turn n)) (report : Counters Int),
      ((process env n).state {} es).stats = .draining [] report →
        classified report.get ≤ report.get .total := by
  intro always
  have le := always Bytes (.plain {}) 1 tornReport { Counters.zero with trash := 1 } rfl
  exact absurd le (by decide)

/-- After it the rest of its merge, a report that no merge meets, and another request that is
flushed and reported. -/
def mendedReport : List (Turn 1) :=
  tornReport ++ List.replicate 5 (.merge 0) ++ List.replicate 9 (.stats true)
    ++ [.call 0 (.request "" .refused), .updateCounters 0] ++ List.replicate 7 (.merge 0)
    ++ List.replicate 7 (.stats true)

/-- That report is right again. -/
theorem reports_behind_total_mended :
    ∃ report, ((process (.plain {}) 1).state {} mendedReport).stats = .draining [] report ∧
      report.get .total = 1 ∧ classified report.get ≤ report.get .total :=
  ⟨_, rfl, rfl, (reports_behind_total (.plain {}) mendedReport).2 (by decide) _ rfl⟩

/-- A report that takes `total` between two additions of a merge, and the next one, which no merge
meets and which has the class that is left. -/
def nextReport : List (Turn 1) :=
  [.call 0 (.request "" .refused), .updateCounters 0, .merge 0] ++ List.replicate 8 (.stats true)
    ++ List.replicate 6 (.merge 0) ++ List.replicate 7 (.stats true)

/-- So it takes the report before it as well. -/
theorem next_report_torn :
    ¬ ∀ (TX : Type) (env : Env TX) (n : Nat) (es : List (Turn n)) (report : Counters Int),
      Undisturbed env 0 es → ((process env n).state {} es).stats = .draining [] report →
        classified report.get ≤ report.get .total := by
  intro always
  have le := always Bytes (.plain {}) 1 nextReport { Counters.zero with trash := 1 } (by decide) rfl
  exact absurd le (by decide)

end PeerNode
