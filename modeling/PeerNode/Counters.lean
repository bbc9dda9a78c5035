/-!
# The counters of a worker and of the process

`stats/Counters.h` and `stats/Counters.cpp`. One record serves both as a worker's own
counters (`LocalCounters`) and as the ones all threads share (`GlobalCounters`). The
integers are unbounded: an `int64_t` would have to count for centuries to wrap.

`Field` names the six counters that a flush moves. `queue` is the seventh and is not one of
them: `merge_counters` and `clear_counters` leave it alone.
-/

namespace PeerNode

/-- `template<typename T> struct Counters`. -/
structure Counters (T : Type) where
  total : T
  trash : T
  noReq : T
  inv : T
  invSign : T
  success : T
  queue : T
deriving DecidableEq, Repr

/-- A counter starts at zero. -/
def Counters.zero : Counters Int := ⟨0, 0, 0, 0, 0, 0, 0⟩

abbrev LocalCounters := Counters Int

abbrev GlobalCounters := Counters Int

/-- The six counters of a flush, in the order `merge_counters` and the statistics timer take
them. -/
inductive Field
  | total
  | trash
  | noReq
  | inv
  | invSign
  | success
deriving DecidableEq, Repr

def Field.all : List Field := [.total, .trash, .noReq, .inv, .invSign, .success]

theorem Field.nodup_all : Field.all.Nodup := by decide

theorem Field.mem_all (f : Field) : f ∈ Field.all := by
  cases f <;> decide

namespace Counters

variable {T : Type}

def get (c : Counters T) : Field → T
  | .total => c.total
  | .trash => c.trash
  | .noReq => c.noReq
  | .inv => c.inv
  | .invSign => c.invSign
  | .success => c.success

def set (c : Counters T) (f : Field) (v : T) : Counters T :=
  match f with
  | .total => { c with total := v }
  | .trash => { c with trash := v }
  | .noReq => { c with noReq := v }
  | .inv => { c with inv := v }
  | .invSign => { c with invSign := v }
  | .success => { c with success := v }

@[simp] theorem get_set_same (c : Counters T) (f : Field) (v : T) : (c.set f v).get f = v := by
  cases f <;> rfl

theorem get_set_other (c : Counters T) {f g : Field} (h : g ≠ f) (v : T) :
    (c.set f v).get g = c.get g := by
  cases f <;> cases g <;> first | rfl | exact absurd rfl h

@[simp] theorem set_queue (c : Counters T) (f : Field) (v : T) : (c.set f v).queue = c.queue := by
  cases f <;> rfl

/-- `counters.f++`. -/
def bump (c : Counters Int) (f : Field) : Counters Int := c.set f (c.get f + 1)

theorem get_bump (c : Counters Int) (f g : Field) :
    (c.bump f).get g = c.get g + if g = f then 1 else 0 := by
  by_cases h : g = f
  · subst h
    rw [bump, get_set_same, if_pos rfl]
  · rw [bump, get_set_other c h, if_neg h, Int.add_zero]

@[simp] theorem bump_queue (c : Counters Int) (f : Field) : (c.bump f).queue = c.queue :=
  set_queue c f _

@[simp] theorem get_zero (f : Field) : zero.get f = 0 := by
  cases f <;> rfl

end Counters

/-- One atomic addition of `merge_counters`. -/
def mergeField (loc : LocalCounters) (f : Field) (glob : GlobalCounters) : GlobalCounters :=
  glob.set f (glob.get f + loc.get f)

/-- `merge_counters`: six additions, one after the other. -/
def mergeCounters (loc : LocalCounters) (glob : GlobalCounters) : GlobalCounters :=
  let glob := mergeField loc .total glob
  let glob := mergeField loc .trash glob
  let glob := mergeField loc .noReq glob
  let glob := mergeField loc .inv glob
  let glob := mergeField loc .invSign glob
  mergeField loc .success glob

/-- `clear_counters`. -/
def clearCounters (loc : LocalCounters) : LocalCounters :=
  { loc with total := 0, trash := 0, noReq := 0, inv := 0, invSign := 0, success := 0 }

/-- A merge is the additions of the six fields in their order. -/
theorem mergeCounters_eq_foldl (loc : LocalCounters) (glob : GlobalCounters) :
    mergeCounters loc glob = Field.all.foldl (fun glob f => mergeField loc f glob) glob := rfl

@[simp] theorem get_clearCounters (loc : LocalCounters) (f : Field) :
    (clearCounters loc).get f = 0 := by
  cases f <;> rfl

@[simp] theorem clearCounters_queue (loc : LocalCounters) :
    (clearCounters loc).queue = loc.queue := rfl

theorem get_mergeField (loc : LocalCounters) (glob : GlobalCounters) (f g : Field) :
    (mergeField loc f glob).get g = glob.get g + if g = f then loc.get f else 0 := by
  by_cases h : g = f
  · subst h
    rw [mergeField, Counters.get_set_same, if_pos rfl]
  · rw [mergeField, Counters.get_set_other glob h, if_neg h, Int.add_zero]

end PeerNode
