import Mathlib.Data.Vector.Basic
import Mathlib.Logic.Function.Basic
import Livezure.Core.Memory
import Livezure.Core.Signed

/-! The hours of the week that are set for a device (`record/day_hours_set.c`), against a plain map
from days and hours to values. -/
namespace Livezure.Service
open Livezure.Core

/-- `day_hours_t`: a character for each hour of the week. -/
structure DayHours where
  weekday : Vector UInt8 (7 * 24)
  deriving DecidableEq

/-- `'1'` or `'0'`. -/
def hourChar (bSet : Int) : UInt8 := if bSet ≠ 0 then 0x31 else 0x30

def dayHoursNew (bSetAll : Int) : DayHours := ⟨Vector.replicate _ (hourChar bSetAll)⟩

def hourPos (weekday hour : Int) : Int := (weekday - 1) * 24 + hour

/-- The cell of `dh->weekday[hour_pos - 1]`. A position that is no `int` lies outside as well. -/
def hourCell (weekday hour : Int) : Except Fault (Fin (7 * 24)) :=
  if inside : 1 ≤ hourPos weekday hour ∧ (hourPos weekday hour - 1).toNat < 7 * 24 then
    .ok ⟨(hourPos weekday hour - 1).toNat, inside.2⟩
  else .error .outOfBounds

/-- What both functions turn away: the last comparison is of the day, not of the hour. -/
def Refused (weekday hour : Int) : Prop := weekday < 0 ∨ weekday > 7 ∨ hour < 0 ∨ weekday > 24

instance (weekday hour : Int) : Decidable (Refused weekday hour) :=
  inferInstanceAs (Decidable (_ ∨ _ ∨ _ ∨ _))

/-- The value returned, and the schedule that is left. -/
def dayHoursSet (dh : Option DayHours) (weekday hour bSet : Int) :
    Except Fault (Int × Option DayHours) :=
  match dh with
  | none => .ok (0, none)
  | some dh =>
    if Refused weekday hour then .ok (0, some dh)
    else do
      let cell ← hourCell weekday hour
      return (1, some ⟨dh.weekday.set cell (hourChar bSet)⟩)

/-- The value returned, and what is left in `*b_set` where there is one. -/
def dayHoursGet (dh : Option DayHours) (weekday hour : Int) (bSet : Option Int) :
    Except Fault (Int × Option Int) :=
  match dh, bSet with
  | some dh, some flag =>
    if Refused weekday hour then .ok (0, some flag)
    else do
      let cell ← hourCell weekday hour
      return (1, some (if dh.weekday[cell] = 0x31 then 1 else 0))
  | _, bSet => .ok (0, bSet)

/-- A day and an hour, as they are passed. -/
structure DayHour where
  weekday : Int
  hour : Int
  deriving DecidableEq

structure HourSet extends DayHour where
  bSet : Int
  deriving DecidableEq

namespace DayHour

/-- Both functions take it: they return 1. -/
def Accepted (hour : DayHour) : Prop := ¬Refused hour.weekday hour.hour

instance (hour : DayHour) : Decidable hour.Accepted := inferInstanceAs (Decidable (¬Refused _ _))

def pos (hour : DayHour) : Int := hourPos hour.weekday hour.hour

end DayHour

namespace DayHours

def set (dh : DayHours) (hour : DayHour) (bSet : Int) : Except Fault (Int × Option DayHours) :=
  dayHoursSet (some dh) hour.weekday hour.hour bSet

def get (dh : DayHours) (hour : DayHour) (flag : Int) : Except Fault (Int × Option Int) :=
  dayHoursGet (some dh) hour.weekday hour.hour (some flag)

def setAll (dh : DayHours) : List HourSet → Except Fault DayHours
  | [] => .ok dh
  | call :: rest => do
    let (_, after) ← dh.set call.toDayHour call.bSet
    match after with
    | none => .error .nullPointer
    | some after => after.setAll rest

end DayHours

/-- What is read of an hour that was set to a value. -/
def truth (bSet : Int) : Int := if bSet ≠ 0 then 1 else 0

/-- A schedule as a map: each hour has the last value set for it. -/
abbrev Schedule := DayHour → Int

def Schedule.setAll (schedule : Schedule) (sets : List HourSet) : Schedule :=
  sets.foldl (fun schedule call => Function.update schedule call.toDayHour (truth call.bSet)) schedule

/-- What is read of each hour, nothing of one that cannot be read. -/
def DayHours.schedule (dh : DayHours) : Schedule := fun hour =>
  match dh.get hour 0 with
  | .ok (_, some flag) => flag
  | _ => 0

/-- Of the hours in use, those that are accepted read as the map says. -/
def DayHours.Shows (used : DayHour → Prop) (dh : DayHours) (schedule : Schedule) : Prop :=
  ∀ hour, used hour → hour.Accepted → ∀ flag, dh.get hour flag = .ok (1, some (schedule hour))

/-- For callers that pass these hours the schedule is a map. -/
structure Keeps (used : DayHour → Prop) : Prop where
  inside : ∀ hour, used hour → hour.Accepted → ∀ (dh : DayHours) (value : Int),
    (∃ after, dh.set hour value = .ok (1, some after)) ∧
      ∃ flag, dh.get hour value = .ok (1, some flag)
  reads_back : ∀ hour, used hour → hour.Accepted → ∀ (dh after : DayHours) (value flag : Int),
    dh.set hour value = .ok (1, some after) → after.get hour flag = .ok (1, some (truth value))
  apart : ∀ hour other, used hour → used other → hour.Accepted → other.Accepted → hour ≠ other →
    ∀ (dh after : DayHours) (value flag : Int), dh.set hour value = .ok (1, some after) →
      after.get other flag = dh.get other flag
  last : ∀ (dh : DayHours) (sets : List HourSet), (∀ call ∈ sets, used call.toDayHour) →
    ∃ after, dh.setAll sets = .ok after ∧ after.Shows used (dh.schedule.setAll sets)

/-- The hours in use that are accepted are hours of the week, and no two are the same hour. -/
structure Separate (used : DayHour → Prop) : Prop where
  week : ∀ hour, used hour → hour.Accepted → 1 ≤ hour.pos ∧ hour.pos ≤ 7 * 24
  distinct : ∀ hour other, used hour → used other → hour.Accepted → other.Accepted →
    hour.pos = other.pos → hour = other

/-! ### One hour -/

section Hours
variable {dh after : DayHours} {hour other : DayHour} {value flag : Int}

/-- The value that a cell stands for. -/
def DayHours.shown (dh : DayHours) (cell : Fin (7 * 24)) : Int :=
  if dh.weekday[cell] = 0x31 then 1 else 0

theorem hourChar_truth (value : Int) : (if hourChar value = 0x31 then 1 else 0) = truth value := by
  unfold hourChar truth
  by_cases set : value ≠ 0
  · rw [if_pos set, if_pos set]
    rfl
  · rw [if_neg set, if_neg set]
    rfl

theorem hourCell_week (week : 1 ≤ hour.pos ∧ hour.pos ≤ 7 * 24) :
    ∃ cell : Fin (7 * 24), hourCell hour.weekday hour.hour = .ok cell ∧
      (cell.val : Int) = hour.pos - 1 := by
  have inside : 1 ≤ hour.pos ∧ (hour.pos - 1).toNat < 7 * 24 := by omega
  refine ⟨⟨(hour.pos - 1).toNat, inside.2⟩, dif_pos inside, ?_⟩
  show ((hour.pos - 1).toNat : Int) = hour.pos - 1
  omega

theorem hourCell_ok {cell : Fin (7 * 24)} (found : hourCell hour.weekday hour.hour = .ok cell) :
    1 ≤ hour.pos ∧ hour.pos ≤ 7 * 24 ∧ (cell.val : Int) = hour.pos - 1 := by
  unfold hourCell at found
  split at found
  · rename_i inside
    obtain rfl := Except.ok.inj found
    change 1 ≤ hour.pos ∧ (hour.pos - 1).toNat < 7 * 24 at inside
    refine ⟨inside.1, by omega, ?_⟩
    show ((hour.pos - 1).toNat : Int) = hour.pos - 1
    omega
  · cases found

theorem DayHours.set_refused (refused : ¬hour.Accepted) : dh.set hour value = .ok (0, some dh) :=
  if_pos (not_not.mp refused)

theorem DayHours.set_accepted (accepted : hour.Accepted) :
    dh.set hour value = (hourCell hour.weekday hour.hour).map fun cell =>
      (1, some ⟨dh.weekday.set cell (hourChar value)⟩) := by
  rw [DayHours.set, dayHoursSet, if_neg accepted]
  cases hourCell hour.weekday hour.hour <;> rfl

theorem DayHours.get_accepted (accepted : hour.Accepted) :
    dh.get hour flag = (hourCell hour.weekday hour.hour).map fun cell => (1, some (dh.shown cell)) := by
  rw [DayHours.get, dayHoursGet, if_neg accepted]
  cases hourCell hour.weekday hour.hour <;> rfl

theorem DayHours.shown_set (dh : DayHours) (cell read : Fin (7 * 24)) (value : Int) :
    DayHours.shown ⟨dh.weekday.set cell (hourChar value)⟩ read =
      if cell = read then truth value else dh.shown read := by
  by_cases same : cell = read
  · subst read
    rw [if_pos rfl, ← hourChar_truth, DayHours.shown, Fin.getElem_fin, Vector.getElem_set_self]
  · have apart : cell.val ≠ read.val := fun equal => same (Fin.ext equal)
    rw [if_neg same, DayHours.shown, Fin.getElem_fin, Vector.getElem_set_ne _ _ apart]
    rfl

theorem DayHours.set_cell (accepted : hour.Accepted) (done : dh.set hour value = .ok (1, some after)) :
    ∃ cell, hourCell hour.weekday hour.hour = .ok cell ∧
      after = ⟨dh.weekday.set cell (hourChar value)⟩ := by
  rw [DayHours.set_accepted accepted] at done
  cases found : hourCell hour.weekday hour.hour with
  | error fault =>
    rw [found] at done
    cases done
  | ok cell =>
    rw [found] at done
    simp only [Except.map, Except.ok.injEq, Prod.mk.injEq, true_and, Option.some.injEq] at done
    exact ⟨cell, rfl, done.symm⟩

theorem DayHours.get_cell {cell : Fin (7 * 24)} (accepted : hour.Accepted)
    (found : hourCell hour.weekday hour.hour = .ok cell) :
    dh.get hour flag = .ok (1, some (dh.shown cell)) := by
  rw [DayHours.get_accepted accepted, found]
  rfl

theorem DayHours.get_after_set {cell : Fin (7 * 24)} (accepted : hour.Accepted)
    (otherAccepted : other.Accepted) (done : dh.set hour value = .ok (1, some after))
    (found : hourCell other.weekday other.hour = .ok cell) :
    after.get other flag = .ok (1, some (if hour.pos = other.pos then truth value else dh.shown cell)) := by
  obtain ⟨own, place, rfl⟩ := DayHours.set_cell accepted done
  rw [DayHours.get_cell otherAccepted found, DayHours.shown_set]
  obtain ⟨_, _, ownPos⟩ := hourCell_ok place
  obtain ⟨_, _, otherPos⟩ := hourCell_ok found
  have same : own = cell ↔ hour.pos = other.pos := by
    rw [Fin.ext_iff]
    omega
  simp only [same]

end Hours

/-! ### Sequences -/

section Sequences
variable {used : DayHour → Prop}

theorem Separate.cell (separate : Separate used) {hour : DayHour} (listed : used hour)
    (accepted : hour.Accepted) :
    ∃ cell, hourCell hour.weekday hour.hour = .ok cell := by
  obtain ⟨cell, found, _⟩ := hourCell_week (separate.week hour listed accepted)
  exact ⟨cell, found⟩

theorem Separate.set_ok (separate : Separate used) {hour : DayHour} (listed : used hour)
    (accepted : hour.Accepted) (dh : DayHours) (value : Int) :
    ∃ after, dh.set hour value = .ok (1, some after) := by
  obtain ⟨cell, found⟩ := separate.cell listed accepted
  rw [DayHours.set_accepted accepted, found]
  exact ⟨_, rfl⟩

theorem Separate.shows_schedule (separate : Separate used) (dh : DayHours) :
    dh.Shows used dh.schedule := by
  intro hour listed accepted flag
  obtain ⟨cell, found⟩ := separate.cell listed accepted
  rw [DayHours.schedule, DayHours.get_cell accepted found, DayHours.get_cell accepted found]

/-- Where hours are separate, a set of one leaves the others as they were. -/
theorem Separate.get_other (separate : Separate used) {hour other : DayHour} {dh after : DayHours}
    {value flag : Int} (listed : used hour) (otherListed : used other) (accepted : hour.Accepted)
    (otherAccepted : other.Accepted) (different : hour ≠ other)
    (done : dh.set hour value = .ok (1, some after)) : after.get other flag = dh.get other flag := by
  obtain ⟨cell, found⟩ := separate.cell otherListed otherAccepted
  have apart : hour.pos ≠ other.pos := fun same =>
    different (separate.distinct hour other listed otherListed accepted otherAccepted same)
  rw [DayHours.get_after_set accepted otherAccepted done found, if_neg apart,
    DayHours.get_cell otherAccepted found]

theorem Separate.get_same (separate : Separate used) {hour : DayHour} {dh after : DayHours}
    {value flag : Int} (listed : used hour) (accepted : hour.Accepted)
    (done : dh.set hour value = .ok (1, some after)) :
    after.get hour flag = .ok (1, some (truth value)) := by
  obtain ⟨cell, found⟩ := separate.cell listed accepted
  rw [DayHours.get_after_set accepted accepted done found, if_pos rfl]

theorem Separate.set_shows (separate : Separate used) {dh : DayHours} {schedule : Schedule}
    (call : HourSet) (listed : used call.toDayHour) (view : dh.Shows used schedule) :
    ∃ (result : Int) (after : DayHours), dh.set call.toDayHour call.bSet = .ok (result, some after) ∧
      after.Shows used (Function.update schedule call.toDayHour (truth call.bSet)) := by
  by_cases accepted : call.toDayHour.Accepted
  · obtain ⟨after, done⟩ := separate.set_ok listed accepted dh call.bSet
    refine ⟨1, after, done, ?_⟩
    intro hour hourListed hourAccepted flag
    by_cases same : hour = call.toDayHour
    · subst same
      rw [separate.get_same listed accepted done, Function.update_self]
    · rw [separate.get_other listed hourListed accepted hourAccepted (Ne.symm same) done,
        view hour hourListed hourAccepted, Function.update_of_ne same]
  · refine ⟨0, dh, DayHours.set_refused accepted, ?_⟩
    intro hour hourListed hourAccepted flag
    have other : hour ≠ call.toDayHour := fun same => accepted (same ▸ hourAccepted)
    rw [view hour hourListed hourAccepted, Function.update_of_ne other]

theorem Separate.setAll_shows (separate : Separate used) (sets : List HourSet)
    (listed : ∀ call ∈ sets, used call.toDayHour) {dh : DayHours} {schedule : Schedule}
    (view : dh.Shows used schedule) :
    ∃ after, dh.setAll sets = .ok after ∧ after.Shows used (schedule.setAll sets) := by
  induction sets generalizing dh schedule with
  | nil => exact ⟨dh, rfl, view⟩
  | cons call rest ih =>
    obtain ⟨first, later⟩ := List.forall_mem_cons.mp listed
    obtain ⟨result, middle, done, middleShows⟩ := separate.set_shows call first view
    obtain ⟨after, run, afterShows⟩ := ih later middleShows
    refine ⟨after, ?_, afterShows⟩
    rw [DayHours.setAll, done]
    exact run

/-- The schedule is a map exactly for callers whose accepted hours are different hours of the
week. -/
theorem keeps_iff (used : DayHour → Prop) : Keeps used ↔ Separate used := by
  constructor
  · intro keeps
    refine ⟨fun hour listed accepted => ?_, fun hour other listed otherListed accepted
      otherAccepted same => ?_⟩
    · obtain ⟨⟨after, done⟩, _⟩ := keeps.inside hour listed accepted (dayHoursNew 0) 1
      obtain ⟨cell, found, _⟩ := DayHours.set_cell accepted done
      obtain ⟨low, high, _⟩ := hourCell_ok found
      exact ⟨low, high⟩
    · apply Classical.byContradiction
      intro different
      -- One set of each of the two, to different values.
      obtain ⟨⟨before, cleared⟩, _⟩ := keeps.inside other otherListed otherAccepted (dayHoursNew 0) 0
      obtain ⟨⟨after, done⟩, _⟩ := keeps.inside hour listed accepted before 1
      have kept := keeps.apart hour other listed otherListed accepted otherAccepted different
        before after 1 0 done
      rw [keeps.reads_back other otherListed otherAccepted _ _ 0 0 cleared] at kept
      obtain ⟨cell, found, _⟩ := DayHours.set_cell otherAccepted cleared
      rw [DayHours.get_after_set accepted otherAccepted done found, if_pos same] at kept
      cases kept
  · intro separate
    exact {
      inside := fun hour listed accepted dh value => by
        refine ⟨separate.set_ok listed accepted dh value, ?_⟩
        obtain ⟨cell, found⟩ := separate.cell listed accepted
        exact ⟨_, DayHours.get_cell accepted found⟩
      reads_back := fun _ listed accepted _ _ _ _ done => separate.get_same listed accepted done
      apart := fun _ _ listed otherListed accepted otherAccepted different _ _ _ _ done =>
        separate.get_other listed otherListed accepted otherAccepted different done
      last := fun dh sets listed => separate.setAll_shows sets listed (separate.shows_schedule dh) }

theorem separate_week :
    Separate fun hour => 1 ≤ hour.weekday ∧ hour.weekday ≤ 7 ∧ 1 ≤ hour.hour ∧ hour.hour ≤ 24 where
  week hour listed _ := by
    unfold DayHour.pos hourPos
    omega
  distinct hour other listed otherListed _ _ same := by
    unfold DayHour.pos hourPos at same
    have days : hour.weekday = other.weekday := by omega
    have hours : hour.hour = other.hour := by omega
    cases hour
    cases other
    exact congr_arg₂ DayHour.mk days hours

/-- Hour 25 of the last day is taken, and lies past the array; hour 25 of the first day is the
first hour of the second. -/
theorem not_keeps_ints :
    ¬Keeps (fun hour => Fits 32 hour.weekday ∧ Fits 32 hour.hour) ∧
      dayHoursSet (some (dayHoursNew 0)) 7 25 1 = .error .outOfBounds ∧
      hourCell 1 25 = hourCell 2 1 := by
  refine ⟨fun keeps => ?_, rfl, rfl⟩
  obtain ⟨⟨after, done⟩, _⟩ := keeps.inside ⟨7, 25⟩ ⟨by decide, by decide⟩ (by decide) (dayHoursNew 0) 1
  cases done

end Sequences
end Livezure.Service
