import Livezure.Core.Transition
import Livezure.Service.Handlers

/-! Handlers that hold a session while others log in and the timer runs: `online_session_ref`
and `online_session_dref` as steps of their own. -/
namespace Livezure.Service
open Livezure.Core

/-- An allocated entry; the number stands for its address. -/
structure SessionCell where
  address : Nat
  entry : SessionEntry
  deriving DecidableEq

/-- A handler that has found a session. -/
inductive HoldPhase where
  /-- Between `online_session_ref` and `online_session_dref`. -/
  | holding
  | dereferenced
  deriving DecidableEq

structure Holder where
  handler : Handler
  /-- What `db_account_check_user_exist` says of the account in the handlers that ask it. -/
  isAdmin : Bool
  address : Nat
  phase : HoldPhase
  deriving DecidableEq

/-- `req_play_*` never give a session back. -/
def Handler.drefs : Handler → Bool
  | .playDevice | .playStop | .playTouch => false
  | _ => true

/-- The handlers that go on with `session` after `online_session_dref`. -/
def Handler.usesLate (isAdmin : Bool) : Handler → Bool
  | .heartbeat => true
  | .deviceCreate | .deviceDelete => isAdmin
  | _ => false

/-- The sessions and who is at them. -/
structure Shared where
  allocated : Nat
  listed : List SessionCell
  /-- Entries that a thread has taken from the list and waits for in `pref_release`. -/
  waits : List SessionCell
  holders : List Holder
  isTimerStuck : Bool
  /-- A handler has read or written a session without a reference to it. -/
  isMisused : Bool
  deriving DecidableEq

inductive SharedAction where
  | ref (handler : Handler) (isAdmin : Bool) (fd : Int)
  | use (index : Nat)
  | dref (index : Nat)
  | add (session : OnlineSession)
  | del (fd : Int)
  | tick
  deriving DecidableEq

/-- The entries that stay, and the one that is waited for. -/
def evictCells (session : OnlineSession) : List SessionCell → List SessionCell × Option SessionCell
  | [] => ([], none)
  | cell :: rest =>
    if conflicts session cell.entry.session then
      if cell.entry.ref ≠ 0 then (rest, some cell) else evictCells session rest
    else
      let (kept, waited) := evictCells session rest
      (cell :: kept, waited)

/-- An entry that the timer removes. -/
def isDue (entry : SessionEntry) : Bool :=
  !entry.session.net.isHeartbeated || entry.isMarkDeleted

def tickCells : List SessionCell → List SessionCell × Option SessionCell
  | [] => ([], none)
  | cell :: rest =>
    if isDue cell.entry then (rest, if cell.entry.ref ≠ 0 then some cell else none)
    else
      let (kept, waited) := tickCells rest
      ({ cell with entry.session.net.isHeartbeated := false } :: kept, waited)

def delCells (fd : Int) : List SessionCell → List SessionCell
  | [] => []
  | cell :: rest =>
    if cell.entry.session.net.fd = fd then { cell with entry.isMarkDeleted := true } :: rest
    else cell :: delCells fd rest

/-- `session->net.is_heartbeated = true`, if the list has the entry still. -/
def heartbeatCells (address : Nat) (cells : List SessionCell) : List SessionCell :=
  cells.map fun cell =>
    if cell.address = address then { cell with entry.session.net.isHeartbeated := true } else cell

/-- The count of the entry at an address, if the list has it. -/
def countCells (address : Nat) (change : Int) (cells : List SessionCell) : List SessionCell :=
  cells.map fun cell =>
    if cell.address = address then { cell with entry.ref := cell.entry.ref + change } else cell

namespace Shared

def next (shared : Shared) : SharedAction → Option Shared
  | .ref handler isAdmin fd =>
    match shared.listed.find? fun cell => decide (cell.entry.session.net.fd = fd) with
    | none => some shared
    | some cell => some { shared with
        listed := countCells cell.address 1 shared.listed
        holders := shared.holders ++ [⟨handler, isAdmin, cell.address, .holding⟩] }
  | .use index =>
    match shared.holders[index]? with
    | none => none
    | some holder =>
      match holder.phase with
      | .holding => some shared
      | .dereferenced =>
        if holder.handler.usesLate holder.isAdmin then some { shared with
          listed := if holder.handler = .heartbeat then heartbeatCells holder.address shared.listed
            else shared.listed
          isMisused := true }
        else none
  | .dref index =>
    match shared.holders[index]? with
    | none => none
    | some holder =>
      if holder.phase = .holding ∧ holder.handler.drefs = true then
        some { shared with
          listed := countCells holder.address (-1) shared.listed
          holders := shared.holders.set index { holder with phase := .dereferenced } }
      else none
  | .add session =>
    match evictCells session shared.listed with
    | (listed, some waited) => some { shared with listed, waits := shared.waits ++ [waited] }
    | (listed, none) => some { shared with
        allocated := shared.allocated + 1
        listed := listed ++ [⟨shared.allocated, session, 0, false⟩] }
  | .del fd => some { shared with listed := delCells fd shared.listed }
  | .tick =>
    if shared.isTimerStuck then none
    else
      match tickCells shared.listed with
      | (listed, some waited) => some { shared with
          listed, waits := shared.waits ++ [waited], isTimerStuck := true }
      | (listed, none) => some { shared with listed }

def system : System Shared SharedAction where
  Start shared := shared = ⟨0, [], [], [], false, false⟩
  next := next

/-- What the reference counts are for. -/
structure Safe (shared : Shared) : Prop where
  listed : ∀ waited ∈ shared.waits, ¬0 < waited.entry.ref
  /-- Who holds one finds it there when giving it back. -/
  found : ∀ holder ∈ shared.holders, holder.phase = .holding →
    ∃ cell ∈ shared.listed, cell.address = holder.address ∧ 0 < cell.entry.ref
  /-- Who waits for one waits for a session that can still be given back. -/
  awaited : ∀ waited ∈ shared.waits, ∃ cell ∈ shared.listed, cell.address = waited.address
  used : shared.isMisused = false

/-- A login and the timer take out only sessions without a reference, and the handlers that
use a session after they gave it back find none. -/
def TakesFree (shared : Shared) : SharedAction → Prop
  | .add session => ∀ cell ∈ shared.listed, conflicts session cell.entry.session = true →
      cell.entry.ref = 0
  | .tick => ∀ cell ∈ shared.listed.find? fun cell => isDue cell.entry, cell.entry.ref = 0
  | .ref handler isAdmin fd => handler.usesLate isAdmin = true →
      ∀ cell ∈ shared.listed, cell.entry.session.net.fd ≠ fd
  | _ => True

instance (shared : Shared) : (action : SharedAction) → Decidable (TakesFree shared action)
  | .add session => inferInstanceAs (Decidable (∀ cell ∈ shared.listed,
      conflicts session cell.entry.session = true → cell.entry.ref = 0))
  | .tick => inferInstanceAs (Decidable
      (∀ cell ∈ shared.listed.find? fun cell => isDue cell.entry, cell.entry.ref = 0))
  | .ref handler isAdmin fd => inferInstanceAs (Decidable (handler.usesLate isAdmin = true →
      ∀ cell ∈ shared.listed, cell.entry.session.net.fd ≠ fd))
  | .use _ | .dref _ | .del _ => .isTrue trivial

/-! ### Addresses and counts -/

/-- Who has a reference to the session at an address. -/
def holdsAt (address : Nat) (holder : Holder) : Bool :=
  decide (holder.phase = .holding) && decide (holder.address = address)

def tallies (cells : List SessionCell) : List (Nat × Int) :=
  cells.map fun cell => (cell.address, cell.entry.ref)

private theorem mem_tallies {cells : List SessionCell} {address : Nat} {count : Int} :
    (address, count) ∈ tallies cells ↔
      ∃ cell ∈ cells, cell.address = address ∧ cell.entry.ref = count := by
  simp [tallies]

theorem tallies_del (fd : Int) (cells : List SessionCell) :
    tallies (delCells fd cells) = tallies cells := by
  induction cells with
  | nil => rfl
  | cons cell rest ih =>
    unfold delCells
    split
    · rfl
    · exact congrArg (_ :: ·) ih

theorem tallies_count (address : Nat) (change : Int) (cells : List SessionCell) :
    tallies (countCells address change cells) = (tallies cells).map fun tally =>
      if tally.1 = address then (tally.1, tally.2 + change) else tally := by
  simp only [tallies, countCells, List.map_map]
  refine List.map_congr_left fun cell _ => ?_
  by_cases same : cell.address = address <;> simp [same]

theorem evictCells_free {session : OnlineSession} {cells : List SessionCell}
    (free : ∀ cell ∈ cells, conflicts session cell.entry.session = true → cell.entry.ref = 0) :
    evictCells session cells =
      (cells.filter fun cell => !conflicts session cell.entry.session, none) := by
  induction cells with
  | nil => rfl
  | cons cell rest ih =>
    have others := ih fun other member => free other (List.mem_cons_of_mem _ member)
    unfold evictCells
    split
    · rename_i conflict
      rw [if_neg (not_not_intro (free cell List.mem_cons_self conflict)), others,
        List.filter_cons_of_neg (by simp [conflict])]
    · rename_i apart
      rw [others, List.filter_cons_of_pos (by simp [apart])]

theorem tickCells_free {cells : List SessionCell}
    (free : ∀ cell ∈ cells.find? fun cell => isDue cell.entry, cell.entry.ref = 0) :
    ∃ kept, tickCells cells = (kept, none) ∧ (tallies kept).Sublist (tallies cells) ∧
      ∀ tally ∈ tallies cells, tally ∈ tallies kept ∨ tally.2 = 0 := by
  induction cells with
  | nil => exact ⟨[], rfl, .slnil, fun _ member => absurd member List.not_mem_nil⟩
  | cons cell rest ih =>
    unfold tickCells
    by_cases due : isDue cell.entry = true
    · have zero : cell.entry.ref = 0 := free cell (by simp [due])
      refine ⟨rest, by simp [due, zero], List.sublist_cons_self _ _, fun tally member => ?_⟩
      rcases List.mem_cons.mp member with rfl | later
      · exact .inr zero
      · exact .inl later
    · obtain ⟨kept, done, fewer, others⟩ := ih fun other member => free other (by simpa [due] using member)
      refine ⟨{ cell with entry.session.net.isHeartbeated := false } :: kept,
        by rw [if_neg due, done], fewer.cons_cons _, fun tally member => ?_⟩
      rcases List.mem_cons.mp member with rfl | later
      · exact .inl List.mem_cons_self
      · exact (others tally later).imp_left (List.mem_cons_of_mem _)

/-- The invariant: every listed entry counts the handlers that hold it. -/
structure Counted (shared : Shared) : Prop where
  addresses : ((tallies shared.listed).map Prod.fst).Nodup
  allocated : ∀ tally ∈ tallies shared.listed, tally.1 < shared.allocated
  known : ∀ holder ∈ shared.holders, holder.phase = .holding →
    ∃ count, (holder.address, count) ∈ tallies shared.listed
  counts : ∀ tally ∈ tallies shared.listed, tally.2 = shared.holders.countP (holdsAt tally.1)
  early : ∀ holder ∈ shared.holders, holder.handler.usesLate holder.isAdmin = false
  waits : shared.waits = []
  used : shared.isMisused = false

theorem Counted.safe {shared : Shared} (counted : Counted shared) : Safe shared where
  listed waited member := by
    rw [counted.waits] at member
    cases member
  found holder member holding := by
    obtain ⟨count, tally⟩ := counted.known holder member holding
    obtain ⟨cell, listed, same, ref⟩ := mem_tallies.mp tally
    refine ⟨cell, listed, same, ?_⟩
    have total : count = shared.holders.countP (holdsAt holder.address) := counted.counts _ tally
    rw [ref, total]
    have positive : 0 < shared.holders.countP (holdsAt holder.address) :=
      List.countP_pos_iff.mpr ⟨holder, member, by simp [holdsAt, holding]⟩
    exact Int.natCast_pos.mpr positive
  awaited waited member := by
    rw [counted.waits] at member
    cases member
  used := counted.used

/-- Entries without a reference go. -/
theorem Counted.keep {shared : Shared} (counted : Counted shared) {kept : List SessionCell}
    (fewer : (tallies kept).Sublist (tallies shared.listed))
    (free : ∀ tally ∈ tallies shared.listed, tally ∈ tallies kept ∨ tally.2 = 0) :
    Counted { shared with listed := kept } where
  addresses := counted.addresses.sublist (fewer.map Prod.fst)
  allocated tally member := counted.allocated tally (fewer.subset member)
  known holder member holding := by
    obtain ⟨count, tally⟩ := counted.known holder member holding
    refine ⟨count, (free _ tally).resolve_right fun zero => ?_⟩
    have same := counted.counts _ tally
    rw [zero] at same
    have none_ := List.countP_eq_zero.mp (Int.natCast_eq_zero.mp same.symm) holder member
    exact none_ (by simp [holdsAt, holding])
  counts tally member := counted.counts tally (fewer.subset member)
  early := counted.early
  waits := counted.waits
  used := counted.used

/-- A new session starts with no reference at an address of its own. -/
theorem Counted.append {shared : Shared} (counted : Counted shared) (session : OnlineSession) :
    Counted { shared with
      allocated := shared.allocated + 1
      listed := shared.listed ++ [⟨shared.allocated, session, 0, false⟩] } := by
  have listed : tallies (shared.listed ++ [⟨shared.allocated, session, 0, false⟩]) =
      tallies shared.listed ++ [(shared.allocated, 0)] := by
    simp [tallies]
  have fresh : ∀ count, (shared.allocated, count) ∉ tallies shared.listed := fun count member =>
    Nat.lt_irrefl _ (counted.allocated _ member)
  refine ⟨?_, fun tally member => ?_, fun holder member holding => ?_, fun tally member => ?_,
    counted.early, counted.waits, counted.used⟩
  · rw [listed, List.map_append]
    refine counted.addresses.append (List.nodup_singleton _) fun address old new => ?_
    obtain ⟨tally, member, rfl⟩ := List.mem_map.mp old
    have same : tally.1 = shared.allocated := List.mem_singleton.mp new
    exact fresh tally.2 (same ▸ member)
  · rw [listed] at member
    rcases List.mem_append.mp member with old | new
    · exact Nat.lt_succ_of_lt (counted.allocated tally old)
    · rw [List.mem_singleton.mp new]
      exact Nat.lt_succ_self _
  · obtain ⟨count, tally⟩ := counted.known holder member holding
    exact ⟨count, listed ▸ List.mem_append_left _ tally⟩
  · rw [listed] at member
    rcases List.mem_append.mp member with old | new
    · exact counted.counts tally old
    · obtain rfl := List.mem_singleton.mp new
      symm
      refine Int.natCast_eq_zero.mpr (List.countP_eq_zero.mpr fun holder member held => ?_)
      simp only [holdsAt, Bool.and_eq_true, decide_eq_true_iff] at held
      obtain ⟨count, tally⟩ := counted.known holder member held.1
      exact fresh count (held.2 ▸ tally)

theorem Counted.recount {shared : Shared} (counted : Counted shared) {address : Nat}
    {change : Int} {holders : List Holder}
    (known : ∀ holder ∈ holders, holder.phase = .holding →
      ∃ count, (holder.address, count) ∈ tallies shared.listed)
    (early : ∀ holder ∈ holders, holder.handler.usesLate holder.isAdmin = false)
    (here : (holders.countP (holdsAt address) : Int) =
      shared.holders.countP (holdsAt address) + change)
    (elsewhere : ∀ other, other ≠ address →
      holders.countP (holdsAt other) = shared.holders.countP (holdsAt other)) :
    Counted { shared with listed := countCells address change shared.listed, holders } := by
  have same : (tallies (countCells address change shared.listed)).map Prod.fst =
      (tallies shared.listed).map Prod.fst := by
    rw [tallies_count, List.map_map]
    refine List.map_congr_left fun tally _ => ?_
    by_cases at_ : tally.1 = address <;> simp [at_]
  have addresses : ∀ tally ∈ tallies (countCells address change shared.listed),
      ∃ old ∈ tallies shared.listed, old.1 = tally.1 := by
    intro tally member
    have listed : tally.1 ∈ (tallies shared.listed).map Prod.fst := same ▸ List.mem_map_of_mem member
    exact List.mem_map.mp listed
  refine ⟨same ▸ counted.addresses, fun tally member => ?_, fun holder member holding => ?_,
    fun tally member => ?_, early, counted.waits, counted.used⟩
  · obtain ⟨old, listed, at_⟩ := addresses tally member
    exact at_ ▸ counted.allocated old listed
  · obtain ⟨count, tally⟩ := known holder member holding
    have listed : holder.address ∈ (tallies (countCells address change shared.listed)).map Prod.fst :=
      same ▸ List.mem_map_of_mem tally
    obtain ⟨new, newMember, at_⟩ := List.mem_map.mp listed
    exact ⟨new.2, at_ ▸ newMember⟩
  · rw [tallies_count] at member
    obtain ⟨old, listed, rfl⟩ := List.mem_map.mp member
    have before := counted.counts old listed
    by_cases at_ : old.1 = address
    · subst at_
      simp only [if_true]
      rw [before, here]
    · simp only [if_neg at_]
      rw [before, elsewhere _ at_]

theorem Counted.ref {shared : Shared} (counted : Counted shared) {handler : Handler}
    {isAdmin : Bool} {cell : SessionCell} (listed : cell ∈ shared.listed)
    (early : handler.usesLate isAdmin = false) :
    Counted { shared with
      listed := countCells cell.address 1 shared.listed
      holders := shared.holders ++ [⟨handler, isAdmin, cell.address, .holding⟩] } := by
  refine counted.recount (fun holder member holding => ?_) (fun holder member => ?_) ?_
    fun other differ => ?_
  · rcases List.mem_append.mp member with old | new
    · exact counted.known holder old holding
    · obtain rfl := List.mem_singleton.mp new
      exact ⟨cell.entry.ref, mem_tallies.mpr ⟨cell, listed, rfl, rfl⟩⟩
  · rcases List.mem_append.mp member with old | new
    · exact counted.early holder old
    · obtain rfl := List.mem_singleton.mp new
      exact early
  · simp [holdsAt]
  · simp [holdsAt, differ.symm]

theorem Counted.dref {shared : Shared} (counted : Counted shared) {index : Nat} {holder : Holder}
    (held : shared.holders[index]? = some holder) (holding : holder.phase = .holding) :
    Counted { shared with
      listed := countCells holder.address (-1) shared.listed
      holders := shared.holders.set index { holder with phase := .dereferenced } } := by
  obtain ⟨bound, at_⟩ := List.getElem?_eq_some_iff.mp held
  have member : holder ∈ shared.holders := List.mem_of_getElem? held
  have after : ∀ other, holdsAt other { holder with phase := .dereferenced } = false := by
    intro other
    simp [holdsAt]
  have before : ∀ other, holdsAt other holder = decide (holder.address = other) := by
    intro other
    simp [holdsAt, holding]
  refine counted.recount (fun other listed held => ?_) (fun other listed => ?_) ?_
    fun other differ => ?_
  · rcases List.mem_or_eq_of_mem_set listed with old | rfl
    · exact counted.known other old held
    · cases held
  · rcases List.mem_or_eq_of_mem_set listed with old | rfl
    · exact counted.early other old
    · exact counted.early holder member
  · have positive : 0 < shared.holders.countP (holdsAt holder.address) :=
      List.countP_pos_iff.mpr ⟨holder, member, by simp [before]⟩
    rw [List.countP_set bound, at_, after, before]
    simp only [decide_true, if_true, Bool.false_eq_true, if_false]
    omega
  · rw [List.countP_set bound, at_, after, before]
    simp [differ.symm]

theorem Counted.step {before after : Shared} {action : SharedAction} (counted : Counted before)
    (met : TakesFree before action) (step : next before action = some after) : Counted after := by
  cases action with
  | ref handler isAdmin fd =>
    simp only [next] at step
    split at step
    · obtain rfl := Option.some.inj step
      exact counted
    · rename_i cell found
      obtain rfl := Option.some.inj step
      have listed := List.mem_of_find?_eq_some found
      have own := List.find?_some found
      refine counted.ref listed (Bool.eq_false_iff.mpr fun late => ?_)
      exact met late cell listed (of_decide_eq_true own)
  | use index =>
    simp only [next] at step
    split at step
    · cases step
    · rename_i holder held
      split at step
      · obtain rfl := Option.some.inj step
        exact counted
      · rw [counted.early holder (List.mem_of_getElem? held)] at step
        cases step
  | dref index =>
    simp only [next] at step
    split at step
    · cases step
    · rename_i holder held
      split at step
      · rename_i holding
        obtain rfl := Option.some.inj step
        exact counted.dref held holding.1
      · cases step
  | add session =>
    simp only [next] at step
    rw [evictCells_free met] at step
    obtain rfl := Option.some.inj step
    have fewer : (tallies (before.listed.filter fun cell =>
        !conflicts session cell.entry.session)).Sublist (tallies before.listed) :=
      List.filter_sublist.map _
    have kept := counted.keep fewer fun tally member => by
      obtain ⟨cell, listed, rfl⟩ := List.mem_map.mp member
      by_cases conflict : conflicts session cell.entry.session = true
      · exact .inr (met cell listed conflict)
      · exact .inl (List.mem_map_of_mem (List.mem_filter.mpr ⟨listed, by simp [conflict]⟩))
    exact kept.append session
  | del fd =>
    obtain rfl := Option.some.inj step
    refine counted.keep ?_ fun tally member => .inl ?_
    · rw [tallies_del]
    · rwa [tallies_del]
  | tick =>
    simp only [next] at step
    split at step
    · cases step
    · obtain ⟨kept, done, fewer, free⟩ := tickCells_free met
      rw [done] at step
      obtain rfl := Option.some.inj step
      exact counted.keep fewer free

end Shared

/-! ### The entries are those of the sequential list -/

theorem evictCells_entries (session : OnlineSession) (cells : List SessionCell) :
    (evictCells session cells).1.map SessionCell.entry =
        (evictConflicts session (cells.map SessionCell.entry)).2 ∧
      (evictCells session cells).2.isNone =
        (evictConflicts session (cells.map SessionCell.entry)).1 := by
  induction cells with
  | nil => exact ⟨rfl, rfl⟩
  | cons cell rest ih =>
    simp only [evictCells, List.map_cons, evictConflicts]
    split
    · split
      · exact ⟨rfl, rfl⟩
      · exact ih
    · exact ⟨congrArg (cell.entry :: ·) ih.1, ih.2⟩

theorem tickCells_entries (cells : List SessionCell) :
    (tickCells cells).1.map SessionCell.entry =
        (onlineSessionCheckAllHearbeat (cells.map SessionCell.entry)).2 ∧
      (tickCells cells).2.isNone =
        (onlineSessionCheckAllHearbeat (cells.map SessionCell.entry)).1 := by
  induction cells with
  | nil => exact ⟨rfl, rfl⟩
  | cons cell rest ih =>
    by_cases due : isDue cell.entry = true
    · have removed : (!cell.entry.session.net.isHeartbeated || cell.entry.isMarkDeleted) = true :=
        due
      simp only [tickCells, List.map_cons, onlineSessionCheckAllHearbeat, if_pos due,
        if_pos removed, true_and]
      by_cases free : cell.entry.ref = 0 <;> simp [free]
    · have stays : ¬(!cell.entry.session.net.isHeartbeated || cell.entry.isMarkDeleted) = true :=
        due
      simp only [tickCells, List.map_cons, onlineSessionCheckAllHearbeat, if_neg due, if_neg stays]
      exact ⟨congrArg (_ :: ·) ih.1, ih.2⟩

theorem delCells_entries (fd : Int) (cells : List SessionCell) :
    (delCells fd cells).map SessionCell.entry =
      (onlineSessionDel fd (cells.map SessionCell.entry)).2 := by
  induction cells with
  | nil => rfl
  | cons cell rest ih =>
    simp only [delCells, List.map_cons, onlineSessionDel]
    split
    · rfl
    · exact congrArg (cell.entry :: ·) ih

end Livezure.Service
