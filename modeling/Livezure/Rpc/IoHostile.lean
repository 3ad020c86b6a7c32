import Livezure.Rpc.RingQueue
import Livezure.Rpc.RoundTrip

/-! `rpc_io_enqueue` on any stream of bytes: a chunk is written to the ring, and one round of
the loop follows the other. -/
namespace Livezure.Rpc
open Livezure.Core

inductive ReceptionPhase where
  | idle
  | looping
  | refused
  | faulted (fault : Fault)
  deriving DecidableEq

inductive ReceptionStep where
  | deliver (chunk : Bytes)
  | round
  deriving DecidableEq

/-- A connection that receives, and what is counted of its stream. -/
structure Reception where
  child : RpcIo
  /-- The number of bytes received and not parsed. -/
  unparsed : Int
  phase : ReceptionPhase
  /-- A header with a negative size went on to the dispatcher. -/
  negative : Bool
  deriving DecidableEq

namespace Reception

def fresh (fd : Int) : Reception := ⟨rpcIoNew fd, 0, .idle, false⟩

/-- A header takes `sizeof(*shell)` bytes off the stream, whatever becomes of it. -/
def next (crypt : RpcCrypt) (state : Reception) : ReceptionStep → Option Reception
  | .deliver chunk =>
    if state.phase ≠ .idle ∨ chunk = [] then none
    else match rpcRbWrite state.child.recv chunk >>= fun written => written.rb.sound with
      | .error fault => some { state with phase := .faulted fault }
      | .ok recv => some { state with
          child := { state.child with recv }, unparsed := state.unparsed + chunk.length
          phase := .looping }
  | .round =>
    if state.phase ≠ .looping then none
    else match rpcIoHeader state.child with
      | .error fault => some { state with phase := .faulted fault }
      | .ok (.short child) => some { state with child, phase := .idle }
      | .ok (.refused child) =>
        some { state with child, unparsed := state.unparsed - sizeofShell, phase := .refused }
      | .ok (.cached child) =>
        some { state with child, unparsed := state.unparsed - sizeofShell, phase := .idle }
      | .ok (.complete child shell bodySize) =>
        let negative := state.negative || bodySize.toInt < 0
        match rpcIoDispatch crypt child shell bodySize with
        | .error fault => some { state with phase := .faulted fault, negative }
        | .ok (child, _) => some { state with
            child, unparsed := state.unparsed - sizeofShell - bodySize.toInt, negative }

def system (crypt : RpcCrypt) : System Reception ReceptionStep where
  Start state := ∃ fd, state = fresh fd
  next := next crypt

/-- What is promised of every state. -/
structure Kept (state : Reception) : Prop where
  sound : ∀ fault, state.phase ≠ .faulted fault
  storage : state.child.recv.buffer.length = state.child.recv.capacity
  head : state.child.recv.head < state.child.recv.capacity
  tail : state.child.recv.tail < state.child.recv.capacity
  canRead : rpcRbCanRead state.child.recv ≤ state.unparsed
  refuses : state.negative = false

/-- The header that the next round reads. -/
def header (child : RpcIo) : RpcShell := .ofBytes (child.recv.content.take sizeofShell)

/-- The body behind a header that announces `size` bytes. -/
def body (child : RpcIo) (size : Nat) : Bytes := (child.recv.content.drop sizeofShell).take size

/-- A round does not find a cached header; it reads a header that does not reach the end of the
storage in the wrapped layout; the size of a packet's body is not negative, and the body is
read in the linear layout and decrypts. -/
def RoundFits (crypt : RpcCrypt) (child : RpcIo) : Prop :=
  child.shellCached = false ∧
    (sizeofShell ≤ rpcRbCanRead child.recv →
      (child.recv.head < child.recv.tail ∨ sizeofShell < child.recv.capacity - child.recv.head) ∧
      ((header child).magic = rpcMagicNumber → (header child).version = rpcVersionSign →
        0 ≤ (header child).bodySize.toInt ∧
        ((header child).bodySize.toInt ≤ (rpcRbCanRead child.recv - sizeofShell : Nat) →
          (header child).bodySize = 0 ∨ child.recv.head < child.recv.tail ∧
            (receivedBody crypt (header child) (body child (header child).bodySize.toInt.toNat)).isOk)))

instance (crypt : RpcCrypt) (child : RpcIo) : Decidable (RoundFits crypt child) := by
  unfold RoundFits
  infer_instance

/-- Whether a step is one that the code is right for. -/
def Guard (crypt : RpcCrypt) (state : Reception) : ReceptionStep → Prop
  | .deliver chunk => rpcRbCanWrite state.child.recv ≤ chunk.length →
      ¬state.child.recv.tail < state.child.recv.head ∧
        rpcRbCanRead state.child.recv + chunk.length + state.child.recv.expand < 2 ^ 31
  | .round => RoundFits crypt state.child

instance (crypt : RpcCrypt) (state : Reception) : (step : ReceptionStep) → Decidable (Guard crypt state step)
  | .deliver _ => inferInstanceAs (Decidable (_ → _))
  | .round => inferInstanceAs (Decidable (RoundFits crypt state.child))

/-- The call under way comes to its end: after so many rounds that all meet the condition. -/
def Returns (crypt : RpcCrypt) (state : Reception) : Prop :=
  ∃ count ≤ rpcRbCanRead state.child.recv + 1,
    (system crypt).Guarded (Guard crypt) state (List.replicate count .round) →
      ∃ after, (system crypt).run state (List.replicate count .round) = some after ∧
        after.phase ≠ .looping

/-! ### The header -/

/-- What a header that was read makes of a round. -/
def headerRead (child : RpcIo) (read : RbRead) : HeaderRound :=
  let after := { child with recv := read.rb }
  if (header child).magic ≠ rpcMagicNumber then .refused after
  else if (header child).version ≠ rpcVersionSign then .refused after
  else if (rpcRbCanRead read.rb : Int) < (header child).bodySize.toInt then
    .cached { after with shell := header child, shellCached := true }
  else .complete after read.data (header child).bodySize

section Header
variable {child : RpcIo}

private theorem rpcIoHeader_fails {fault : Fault} (uncached : child.shellCached = false)
    (enough : sizeofShell ≤ rpcRbCanRead child.recv)
    (failed : readSound child.recv sizeofShell = .error fault) : rpcIoHeader child = .error fault := by
  have start : ¬ (child.shellCached = false ∧ rpcRbCanRead child.recv < sizeofShell) :=
    fun both => Nat.not_lt.mpr enough both.2
  rw [rpcIoHeader, if_neg start, if_neg (by simp [uncached]), failed]
  rfl

/-- A read that stays in bounds takes the header off the queue. -/
theorem rpcIoHeader_reads (valid : child.recv.Valid) (clean : child.recv.strayed = false)
    (uncached : child.shellCached = false) (enough : sizeofShell ≤ rpcRbCanRead child.recv)
    (sound : child.recv.head < child.recv.tail ∨ sizeofShell < child.recv.capacity - child.recv.head) :
    ∃ read, rpcRbRead child.recv sizeofShell = .ok read ∧ ReadsQueue child.recv sizeofShell read ∧
      read.rb.strayed = false ∧ loadShell read.rb read.data = .ok (header child) ∧
      rpcIoHeader child = .ok (headerRead child read) := by
  obtain ⟨read, done, reads, unstrayed⟩ := rpcRbRead_takes valid clean enough sound
  have start : ¬ (child.shellCached = false ∧ rpcRbCanRead child.recv < sizeofShell) :=
    fun both => Nat.not_lt.mpr enough both.2
  have settled : ¬ child.shellCached = true := by simp [uncached]
  have loaded : loadShell read.rb read.data = .ok (header child) := by
    rw [loadShell, reads.bytes]
    rfl
  have readOk : readSound child.recv sizeofShell = .ok read := by
    rw [readSound, done]
    simp only [bind, Except.bind, sound_clean _ unstrayed, pure, Except.pure]
  refine ⟨read, done, reads, unstrayed, loaded, ?_⟩
  rw [rpcIoHeader, if_neg start, if_neg settled, readOk]
  simp only [bind, Except.bind, loaded, headerRead]
  split
  · rfl
  · split
    · rfl
    · split <;> rfl

theorem headerRead_cases (child : RpcIo) (read : RbRead) :
    (∃ after, headerRead child read = .refused after ∧ after.recv = read.rb) ∨
    (∃ after, headerRead child read = .cached after ∧ after.recv = read.rb) ∨
    (header child).magic = rpcMagicNumber ∧ (header child).version = rpcVersionSign ∧
      (header child).bodySize.toInt ≤ rpcRbCanRead read.rb ∧
      headerRead child read =
        .complete { child with recv := read.rb } read.data (header child).bodySize := by
  unfold headerRead
  dsimp only
  split
  · exact .inl ⟨_, rfl, rfl⟩
  · rename_i magic
    split
    · exact .inl ⟨_, rfl, rfl⟩
    · rename_i version
      split
      · exact .inr (.inl ⟨_, rfl, rfl⟩)
      · rename_i present
        exact .inr (.inr ⟨not_not.mp magic, not_not.mp version, Int.not_lt.mp present, rfl⟩)

theorem headerRead_complete {child : RpcIo} {read : RbRead}
    (magic : (header child).magic = rpcMagicNumber) (version : (header child).version = rpcVersionSign)
    (present : (header child).bodySize.toInt ≤ rpcRbCanRead read.rb) :
    headerRead child read =
      .complete { child with recv := read.rb } read.data (header child).bodySize := by
  rw [headerRead, if_neg (not_not.mpr magic), if_neg (not_not.mpr version),
    if_neg (Int.not_lt.mpr present)]

/-- A header read across the end of the storage stores a pointer outside the ring. -/
theorem rpcIoHeader_across (uncached : child.shellCached = false)
    (enough : sizeofShell ≤ rpcRbCanRead child.recv)
    (unsound : ¬(child.recv.head < child.recv.tail ∨
      sizeofShell < child.recv.capacity - child.recv.head)) :
    ∃ fault, rpcIoHeader child = .error fault := by
  obtain ⟨layout, across⟩ := not_or.mp unsound
  cases read : readSound child.recv sizeofShell with
  | error fault => exact ⟨fault, rpcIoHeader_fails uncached enough read⟩
  | ok result =>
    obtain ⟨inner, done, read⟩ := bind_ok read
    obtain ⟨_, sound, _⟩ := bind_ok read
    have strayed := rpcRbRead_across (Nat.not_lt.mp layout) (Nat.not_lt.mp across) done
    rw [(sound_ok sound).2] at strayed
    cases strayed

private theorem rpcIoHeader_cached (cached : child.shellCached = true) :
    rpcIoHeader child = .error .uninitialised := by
  rw [rpcIoHeader, if_neg (fun both => Bool.noConfusion (cached.symm.trans both.1)), if_pos cached]

end Header

/-! ### The body -/

section Body
variable {crypt : RpcCrypt} {child : RpcIo}

/-- Without a body nothing is read, and the header is read once more. -/
theorem rpcIoDispatch_empty {shell : RpcShell} (loaded : loadShell child.recv place = .ok shell) :
    ∃ task, rpcIoDispatch crypt child place 0 = .ok ({ child with shellCached := false }, task) := by
  refine ⟨⟨child.fd, place, shell, none⟩, ?_⟩
  simp only [rpcIoDispatch, readBody, ↓reduceIte, bind, Except.bind, loaded, pure, Except.pure]

/-- In the linear layout the body stands behind the header, and what it decrypts to decides. -/
theorem rpcIoDispatch_body (valid : child.recv.Valid) (clean : child.recv.strayed = false)
    (linear : child.recv.head < child.recv.tail) (enough : sizeofShell ≤ rpcRbCanRead child.recv)
    {size : Nat} (sized : (header child).bodySize.toInt = size)
    (present : size ≤ rpcRbCanRead child.recv - sizeofShell)
    (read : rpcRbRead child.recv sizeofShell = .ok result) :
    rpcIoDispatch crypt { child with recv := result.rb } result.data (header child).bodySize = do
      let body ← receivedBody crypt (header child) (body child size)
      return ({ child with recv := taken child.recv (sizeofShell + size), shellCached := false },
        { fd := child.fd, shell := result.data, seen := header child, body }) := by
  rw [rpcRbRead_linear linear enough] at read
  obtain rfl := Except.ok.inj read
  have length := valid.content_length
  have flat : ¬child.recv.Wrapped := Nat.not_lt.mpr (Nat.le_of_lt linear)
  obtain ⟨after, order, content⟩ := taken_queue valid flat (length ▸ enough)
  have within : size ≤ (taken child.recv sizeofShell).content.length := by
    rw [content, List.length_drop]
    omega
  have loads : ∀ count, loadShell (taken (taken child.recv sizeofShell) count)
      (.storage child.recv.generation child.recv.head) = .ok (header child) := by
    intro count
    rw [taken_taken]
    exact loadShell_taken flat (length ▸ enough) _
  have bytes : body child size = (taken child.recv sizeofShell).content.take size := by
    rw [content]
    rfl
  rw [bytes, ← taken_taken]
  exact rpcIoDispatch_linear after clean order sized within loads

end Body

/-! ### One step -/

/-- The ring holds what was not parsed. -/
structure Holds (state : Reception) : Prop where
  sound : ∀ fault, state.phase ≠ .faulted fault
  valid : state.child.recv.Valid
  clean : state.child.recv.strayed = false
  unparsed : state.unparsed = rpcRbCanRead state.child.recv
  refuses : state.negative = false

theorem Holds.kept {state : Reception} (holds : state.Holds) : state.Kept :=
  ⟨holds.sound, holds.valid.storage, holds.valid.head_lt, holds.valid.tail_lt,
    Int.le_of_eq holds.unparsed.symm, holds.refuses⟩

section Step
variable {crypt : RpcCrypt} {state after : Reception}

theorem Holds.deliver {chunk : Bytes} (holds : state.Holds) (met : Guard crypt state (.deliver chunk))
    (step : next crypt state (.deliver chunk) = some after) : after.Holds := by
  obtain ⟨recv, done, valid, clean, content⟩ := rpcRbWrite_appends holds.valid holds.clean
    (fun large => (met large).1) (fun large => (met large).2)
  have stored : (rpcRbWrite state.child.recv chunk >>= fun written => written.rb.sound) = .ok recv := by
    rw [done]
    exact sound_clean recv clean
  simp only [next, stored] at step
  split at step
  · cases step
  · obtain rfl := Option.some.inj step
    refine ⟨fun fault => ReceptionPhase.noConfusion, valid, clean, ?_, holds.refuses⟩
    simp only
    rw [← valid.content_length, content, List.length_append, holds.unparsed,
      ← holds.valid.content_length, Int.natCast_add]

theorem Holds.dispatches {read : RbRead} (holds : state.Holds)
    (enough : sizeofShell ≤ rpcRbCanRead state.child.recv)
    (done : rpcRbRead state.child.recv sizeofShell = .ok read)
    (reads : ReadsQueue state.child.recv sizeofShell read) (clean : read.rb.strayed = false)
    (loaded : loadShell read.rb read.data = .ok (header state.child))
    {size : Nat} (sized : (header state.child).bodySize.toInt = size)
    (present : size ≤ rpcRbCanRead state.child.recv - sizeofShell)
    (fits : (header state.child).bodySize = 0 ∨ state.child.recv.head < state.child.recv.tail ∧
      (receivedBody crypt (header state.child) (body state.child size)).isOk) :
    ∃ child task, rpcIoDispatch crypt { state.child with recv := read.rb } read.data
        (header state.child).bodySize = .ok (child, task) ∧
      child.recv.Valid ∧ child.recv.strayed = false ∧
      rpcRbCanRead child.recv = rpcRbCanRead state.child.recv - sizeofShell - size := by
  have length := holds.valid.content_length
  rcases fits with empty | ⟨linear, decrypts⟩
  · have nothing : size = 0 := by
      rw [empty] at sized
      simpa using sized.symm
    obtain ⟨task, dispatched⟩ : ∃ task, rpcIoDispatch crypt { state.child with recv := read.rb }
        read.data 0 = .ok (_, task) := rpcIoDispatch_empty loaded
    refine ⟨_, task, empty ▸ dispatched, reads.valid, clean, ?_⟩
    rw [nothing]
    exact reads.canRead holds.valid
  · have flat : ¬state.child.recv.Wrapped := Nat.not_lt.mpr (Nat.le_of_lt linear)
    obtain ⟨valid, _, content⟩ := taken_queue holds.valid flat
      (show sizeofShell + size ≤ state.child.recv.content.length by omega)
    have dispatched : rpcIoDispatch crypt _ read.data _ = _ :=
      rpcIoDispatch_body holds.valid holds.clean linear enough sized present done
    cases decrypted : receivedBody crypt (header state.child) (body state.child size) with
    | error fault =>
      rw [decrypted] at decrypts
      cases decrypts
    | ok content' =>
      rw [decrypted] at dispatched
      refine ⟨_, _, dispatched, valid, holds.clean, ?_⟩
      simp only
      rw [← valid.content_length, content, List.length_drop, length]
      omega

/-- What a header leaves in the ring, after a round that ends with it. -/
theorem Holds.ended {read : RbRead} {child : RpcIo} {phase : ReceptionPhase} (holds : state.Holds)
    (reads : ReadsQueue state.child.recv sizeofShell read) (clean : read.rb.strayed = false)
    (enough : sizeofShell ≤ rpcRbCanRead state.child.recv) (same : child.recv = read.rb)
    (sound : ∀ fault, phase ≠ .faulted fault) :
    Holds { state with child, unparsed := state.unparsed - sizeofShell, phase } := by
  refine ⟨sound, same ▸ reads.valid, same ▸ clean, ?_, holds.refuses⟩
  simp only [same]
  rw [reads.canRead holds.valid, holds.unparsed]
  omega

/-- A round that meets the condition keeps the ring, and one that is followed by another has
taken bytes. -/
theorem Holds.round (holds : state.Holds) (met : Guard crypt state .round)
    (step : next crypt state .round = some after) :
    after.Holds ∧ (after.phase = .looping →
      rpcRbCanRead after.child.recv < rpcRbCanRead state.child.recv) := by
  obtain ⟨uncached, fits⟩ := met
  have length := holds.valid.content_length
  by_cases looping : state.phase = .looping
  · rcases Nat.lt_or_ge (rpcRbCanRead state.child.recv) sizeofShell with few | enough
    · have short := rpcIoHeader_short holds.valid uncached (length ▸ few)
      simp only [next, looping, ne_eq, not_true_eq_false, ↓reduceIte, short] at step
      obtain rfl := Option.some.inj step
      exact ⟨⟨fun fault => ReceptionPhase.noConfusion, holds.valid, holds.clean, holds.unparsed,
        holds.refuses⟩, ReceptionPhase.noConfusion⟩
    · obtain ⟨inBounds, packet⟩ := fits enough
      obtain ⟨read, done, reads, clean, loaded, first⟩ :=
        rpcIoHeader_reads holds.valid holds.clean uncached enough inBounds
      simp only [next, looping, ne_eq, not_true_eq_false, ↓reduceIte, first] at step
      rcases headerRead_cases state.child read with
        ⟨child, refused, same⟩ | ⟨child, cached, same⟩ | ⟨magic, version, present, complete⟩
      · simp only [refused] at step
        obtain rfl := Option.some.inj step
        exact ⟨holds.ended reads clean enough same fun fault => ReceptionPhase.noConfusion,
          ReceptionPhase.noConfusion⟩
      · simp only [cached] at step
        obtain rfl := Option.some.inj step
        exact ⟨holds.ended reads clean enough same fun fault => ReceptionPhase.noConfusion,
          ReceptionPhase.noConfusion⟩
      · obtain ⟨positive, whole⟩ := packet magic version
        rw [reads.canRead holds.valid] at present
        obtain ⟨size, sized⟩ := Int.eq_ofNat_of_zero_le positive
        have fit := whole present
        rw [sized, Int.toNat_natCast] at fit
        obtain ⟨child, task, dispatched, valid, unstrayed, taken⟩ :=
          holds.dispatches enough done reads clean loaded sized (by omega) fit
        have positive : decide ((header state.child).bodySize.toInt < 0) = false := by
          rw [decide_eq_false_iff_not]
          omega
        simp only [complete, dispatched, positive, Bool.or_false] at step
        obtain rfl := Option.some.inj step
        refine ⟨⟨fun fault => ReceptionPhase.noConfusion, valid, unstrayed, ?_, holds.refuses⟩,
          fun _ => ?_⟩
        · simp only
          rw [taken, holds.unparsed, sized]
          omega
        · simp only
          rw [taken]
          have some : 0 < sizeofShell := by decide
          omega
  · simp only [next, ne_eq, looping, not_false_eq_true, ↓reduceIte] at step
    cases step

private theorem not_kept_of_faulted {state : Reception} {fault : Fault} (faulted : state.phase = .faulted fault) :
    ¬state.Kept := fun kept => kept.sound fault faulted

/-- A chunk that does not meet the condition makes a wrapped ring grow, or its capacity overflow. -/
theorem Holds.deliver_unmet {chunk : Bytes} (holds : state.Holds)
    (unmet : ¬Guard crypt state (.deliver chunk))
    (step : next crypt state (.deliver chunk) = some after) : ¬after.Kept := by
  obtain ⟨large, both⟩ := Classical.not_imp.mp unmet
  obtain ⟨fault, failed⟩ : ∃ fault,
      (rpcRbWrite state.child.recv chunk >>= fun written => written.rb.sound) = .error fault := by
    cases stored : rpcRbWrite state.child.recv chunk >>= fun written => written.rb.sound with
    | error fault => exact ⟨fault, rfl⟩
    | ok recv =>
      obtain ⟨written, done, sound⟩ := bind_ok stored
      have wrapped : state.child.recv.Wrapped :=
        not_not.mp fun linear => both ⟨linear, RpcRb.GrowthFits.of_write done large⟩
      have strayed := rpcRbWrite_wrapped_grown holds.valid wrapped large done
      rw [(sound_ok sound).2] at strayed
      cases strayed
  simp only [next, failed] at step
  split at step
  · cases step
  · obtain rfl := Option.some.inj step
    exact not_kept_of_faulted rfl

theorem next_header_fails {fault : Fault} (failed : rpcIoHeader state.child = .error fault)
    (step : next crypt state .round = some after) : ¬after.Kept := by
  simp only [next, failed] at step
  split at step
  · cases step
  · obtain rfl := Option.some.inj step
    exact not_kept_of_faulted rfl

/-- A header with a negative size is not refused, whatever the dispatcher makes of it. -/
theorem next_negative {child : RpcIo} {shell : Place} {bodySize : BitVec 32}
    (complete : rpcIoHeader state.child = .ok (.complete child shell bodySize))
    (negative : bodySize.toInt < 0) (step : next crypt state .round = some after) : ¬after.Kept := by
  intro kept
  have refuses := kept.refuses
  simp only [next, complete, decide_eq_true negative, Bool.or_true] at step
  split at step
  · cases step
  · split at step
    · rw [← Option.some.inj step] at refuses
      cases refuses
    · rw [← Option.some.inj step] at refuses
      cases refuses

theorem next_dispatch_fails {child : RpcIo} {shell : Place} {bodySize : BitVec 32} {fault : Fault}
    (complete : rpcIoHeader state.child = .ok (.complete child shell bodySize))
    (failed : rpcIoDispatch crypt child shell bodySize = .error fault)
    (step : next crypt state .round = some after) : ¬after.Kept := by
  simp only [next, complete, failed] at step
  split at step
  · cases step
  · obtain rfl := Option.some.inj step
    exact not_kept_of_faulted rfl

/-- A round that does not meet the condition goes wrong, unless it reads a body from a wrapped
ring: that overwrites or frees the side buffer with the header. -/
theorem Holds.round_unmet (holds : state.Holds) (unmet : ¬Guard crypt state .round)
    (step : next crypt state .round = some after) : ¬after.Kept ∨ state.child.recv.Wrapped := by
  by_cases uncached : state.child.shellCached = false
  · obtain ⟨enough, failing⟩ := Classical.not_imp.mp fun fits => unmet ⟨uncached, fits⟩
    by_cases inBounds : state.child.recv.head < state.child.recv.tail ∨
        sizeofShell < state.child.recv.capacity - state.child.recv.head
    · obtain ⟨magic, failing⟩ := Classical.not_imp.mp fun packet => failing ⟨inBounds, packet⟩
      obtain ⟨version, failing⟩ := Classical.not_imp.mp failing
      obtain ⟨read, done, reads, clean, loaded, first⟩ :=
        rpcIoHeader_reads holds.valid holds.clean uncached enough inBounds
      have left := reads.canRead holds.valid
      rcases Int.lt_or_le (header state.child).bodySize.toInt 0 with negative | positive
      · rw [headerRead_complete magic version (by omega)] at first
        exact .inl (next_negative first negative step)
      · obtain ⟨present, failing⟩ := Classical.not_imp.mp fun whole => failing ⟨positive, whole⟩
        obtain ⟨_, failing⟩ := not_or.mp failing
        rw [headerRead_complete magic version (by omega)] at first
        by_cases linear : state.child.recv.head < state.child.recv.tail
        · obtain ⟨size, sized⟩ := Int.eq_ofNat_of_zero_le positive
          rw [sized, Int.toNat_natCast] at failing
          have dispatched : rpcIoDispatch crypt _ read.data _ = _ :=
            rpcIoDispatch_body holds.valid holds.clean linear enough sized (by omega) done
          cases decrypted : receivedBody crypt (header state.child) (body state.child size) with
          | error fault =>
            rw [decrypted] at dispatched
            exact .inl (next_dispatch_fails first dispatched step)
          | ok content => exact absurd ⟨linear, decrypted ▸ rfl⟩ failing
        · right
          apply Nat.lt_of_le_of_ne (Nat.not_lt.mp linear)
          intro same
          rw [rpcRbCanRead, if_pos same.symm] at enough
          exact absurd enough (by decide)
    · obtain ⟨fault, failed⟩ := rpcIoHeader_across uncached enough inBounds
      exact .inl (next_header_fails failed step)
  · have cached : state.child.shellCached = true := by simpa using uncached
    exact .inl (next_header_fails (rpcIoHeader_cached cached) step)

/-! ### The loop -/

theorem next_round (looping : state.phase = .looping) : ∃ after, next crypt state .round = some after := by
  simp only [next, looping, ne_eq, not_true_eq_false, ↓reduceIte]
  split
  · exact ⟨_, rfl⟩
  · exact ⟨_, rfl⟩
  · exact ⟨_, rfl⟩
  · exact ⟨_, rfl⟩
  · split
    · exact ⟨_, rfl⟩
    · exact ⟨_, rfl⟩

/-- Each round but the last takes a header off the ring. -/
theorem Holds.returns (holds : state.Holds) : Returns crypt state := by
  induction unread : rpcRbCanRead state.child.recv using Nat.strongRecOn generalizing state with
  | ind size ih =>
    subst unread
    by_cases looping : state.phase = .looping
    · by_cases met : Guard crypt state .round
      · obtain ⟨after, step⟩ : ∃ after, next crypt state .round = some after := next_round looping
        obtain ⟨kept, fewer⟩ := holds.round met step
        by_cases again : after.phase = .looping
        · obtain ⟨count, bound, ends⟩ := ih _ (fewer again) kept rfl
          have less := fewer again
          refine ⟨count + 1, by omega, fun guarded => ?_⟩
          obtain ⟨last, ended, stopped⟩ := ends (guarded.2 after step)
          exact ⟨last, System.run_cons step ended, stopped⟩
        · exact ⟨1, by omega, fun _ => ⟨after, System.run_one step, again⟩⟩
      · exact ⟨1, by omega, fun guarded => absurd guarded.1 met⟩
    · exact ⟨0, Nat.zero_le _, fun _ => ⟨state, rfl, looping⟩⟩

private theorem rpcIoRounds_run {fuel : Nat} {call : Enqueued} (looping : state.phase = .looping)
    (done : rpcIoRounds crypt fuel state.child = .ok call) :
    ∃ count last, (system crypt).run state (List.replicate count .round) = some last ∧
      last.child = call.child ∧
      (last.phase = .refused ∧ call.ret = -1 ∨ last.phase = .idle ∧ 0 ≤ call.ret) := by
  induction fuel generalizing state call with
  | zero => cases done
  | succ fuel ih =>
    obtain ⟨outcome, first, done⟩ := bind_ok done
    obtain ⟨header, read, first⟩ := bind_ok first
    cases header with
    | short child =>
      obtain rfl := Except.ok.inj first
      obtain rfl := Except.ok.inj done
      refine ⟨1, { state with child, phase := .idle }, System.run_one ?_, rfl, .inr ⟨rfl, Int.le_refl 0⟩⟩
      simp only [system, next, looping, ne_eq, not_true_eq_false, ↓reduceIte, read]
    | refused child =>
      obtain rfl := Except.ok.inj first
      obtain rfl := Except.ok.inj done
      refine ⟨1, { state with child, unparsed := state.unparsed - sizeofShell, phase := .refused },
        System.run_one ?_, rfl, .inl ⟨rfl, rfl⟩⟩
      simp only [system, next, looping, ne_eq, not_true_eq_false, ↓reduceIte, read]
    | cached child =>
      obtain rfl := Except.ok.inj first
      obtain rfl := Except.ok.inj done
      refine ⟨1, { state with child, unparsed := state.unparsed - sizeofShell, phase := .idle },
        System.run_one ?_, rfl, .inr ⟨rfl, Int.one_nonneg⟩⟩
      simp only [system, next, looping, ne_eq, not_true_eq_false, ↓reduceIte, read]
    | complete child shell bodySize =>
      obtain ⟨⟨dispatchedChild, task⟩, dispatched, first⟩ := bind_ok first
      obtain rfl := Except.ok.inj first
      obtain ⟨later, rounds, done⟩ := bind_ok done
      obtain rfl := Except.ok.inj done
      let after : Reception := { state with
        child := dispatchedChild, unparsed := state.unparsed - sizeofShell - bodySize.toInt
        negative := state.negative || bodySize.toInt < 0 }
      have step : next crypt state .round = some after := by
        simp only [next, looping, ne_eq, not_true_eq_false, ↓reduceIte, read, dispatched, after]
      have again : after.phase = .looping := looping
      obtain ⟨count, last, ran, same, ended⟩ := ih again rounds
      exact ⟨count + 1, last, System.run_cons step ran, same, ended⟩

theorem enqueueChild_run {chunk : Bytes} {call : Enqueued} (idle : state.phase = .idle)
    (present : chunk ≠ []) (done : enqueueChild crypt state.child chunk = .ok call) :
    ∃ count last, (system crypt).run state (.deliver chunk :: List.replicate count .round) = some last ∧
      last.child = call.child ∧
      (last.phase = .refused ∧ call.ret = -1 ∨ last.phase = .idle ∧ 0 ≤ call.ret) := by
  obtain ⟨written, write, done⟩ := bind_ok done
  obtain ⟨recv, sound, rounds⟩ := bind_ok done
  let after : Reception := { state with
    child := { state.child with recv }, unparsed := state.unparsed + chunk.length, phase := .looping }
  have stored : (rpcRbWrite state.child.recv chunk >>= fun written => written.rb.sound) = .ok recv := by
    rw [write]
    exact sound
  have step : next crypt state (.deliver chunk) = some after := by
    have ready : ¬(state.phase ≠ .idle ∨ chunk = []) := not_or.mpr ⟨not_not.mpr idle, present⟩
    simp only [next, if_neg ready, stored, after]
  have looping : after.phase = .looping := rfl
  obtain ⟨count, last, ran, ended⟩ := rpcIoRounds_run looping rounds
  exact ⟨count, last, System.run_cons step ran, ended⟩

end Step

/-! ### Every run -/

/-- In every run of chunks and rounds that meet their conditions the ring stays in its storage,
holds no more than what was not parsed, and a call comes to its end. A step that does not meet
its condition goes wrong, unless it reads a body from a wrapped ring. -/
theorem receives_of_guard (crypt : RpcCrypt) {state : Reception}
    (reached : (system crypt).Reachable (Guard crypt) state) :
    state.Kept ∧ Returns crypt state ∧ ∀ step after, next crypt state step = some after →
      ¬Guard crypt state step → ¬after.Kept ∨ step = .round ∧ state.child.recv.Wrapped := by
  have holds : state.Holds := by
    refine reached.invariant Holds ?_ ?_
    · rintro _ ⟨fd, rfl⟩
      exact ⟨fun fault => ReceptionPhase.noConfusion, rpcRbNew_valid (by decide) (by decide), rfl, rfl,
        rfl⟩
    · intro before step after holds met done
      cases step with
      | deliver chunk => exact holds.deliver met done
      | round => exact (holds.round met done).1
  refine ⟨holds.kept, holds.returns, fun step after done unmet => ?_⟩
  cases step with
  | deliver chunk => exact .inl (holds.deliver_unmet unmet done)
  | round => exact (holds.round_unmet unmet done).imp_right fun wrapped => ⟨rfl, wrapped⟩

/-- A packet without a body in two chunks. -/
theorem kept_packet :
    let packet := (plainShell 1 2 reqTypeGet 0).bytes
    ∃ state, (system noCiphers).run (fresh 7)
      [.deliver (packet.take 5), .round, .deliver (packet.drop 5), .round, .round] = some state ∧
      state.phase = .idle ∧ state.Kept := by
  intro packet
  have ends : ((system noCiphers).run (fresh 7) [.deliver (packet.take 5), .round,
      .deliver (packet.drop 5), .round, .round]).map Reception.phase = some .idle := by
    decide +kernel
  obtain ⟨state, ran, phase⟩ := Option.map_eq_some_iff.mp ends
  have reached : (system noCiphers).Reachable (Guard noCiphers) state :=
    .run (.start ⟨7, rfl⟩) (by decide +kernel) ran
  exact ⟨state, ran, phase, (receives_of_guard noCiphers reached).1⟩

/-! ### A size that leads back to the header -/

/-- A body of minus the size of a header is read by going back to the header. -/
theorem rpcRbRead_rewinds {rb : RpcRb} (linear : rb.head + sizeofShell < rb.tail) :
    rpcRbRead (taken rb sizeofShell) (-20) =
      .ok ⟨rb, .storage rb.generation (rb.head + sizeofShell), -20⟩ := by
  have order : (taken rb sizeofShell).head < (taken rb sizeofShell).tail := linear
  have before : 19 < (taken rb sizeofShell).head := Nat.lt_add_left rb.head (by decide)
  change rpcRbRead (taken rb sizeofShell) (.negSucc 19) = _
  rw [rpcRbRead, if_pos order, if_pos before]
  rfl

private theorem readBody_rewinds {crypt : RpcCrypt} {rb : RpcRb} {shell : RpcShell} {body : Option RpcBuffer}
    (clean : rb.strayed = false) (linear : rb.head + sizeofShell < rb.tail) (plain : shell.crypt = 0)
    (back : shell.bodySize.toInt = -20) (loaded : loadShell rb place = .ok shell)
    (made : rpcBufferNew (some (rb.buffer.drop (rb.head + sizeofShell))) (-20) = .ok body) :
    readBody crypt (taken rb sizeofShell) place shell.bodySize = .ok (rb, body) := by
  have nonzero : shell.bodySize ≠ 0 := by
    intro zero
    rw [zero] at back
    cases back
  have read : readSound (taken rb sizeofShell) (-20) =
      .ok ⟨rb, .storage rb.generation (rb.head + sizeofShell), -20⟩ := by
    rw [readSound, rpcRbRead_rewinds linear]
    simp only [bind, Except.bind, sound_clean rb clean, pure, Except.pure]
  have memory : rb.memory (.storage rb.generation (rb.head + sizeofShell)) =
      .ok (rb.buffer.drop (rb.head + sizeofShell)) := if_pos rfl
  have kept : rpcBufferDecrypt crypt body (.ofField 0) = .ok body := rfl
  rw [readBody, if_neg nonzero, back, read]
  simp only [bind, Except.bind, memory, loaded, back, plain, made, kept, pure, Except.pure]

/-- A packet that leads back to its own header, with bytes behind it. -/
structure Rewinds (child : RpcIo) (body : Option RpcBuffer) : Prop where
  valid : child.recv.Valid
  clean : child.recv.strayed = false
  uncached : child.shellCached = false
  linear : child.recv.head + sizeofShell < child.recv.tail
  magic : (header child).magic = rpcMagicNumber
  version : (header child).version = rpcVersionSign
  plain : (header child).crypt = 0
  back : (header child).bodySize.toInt = -20
  made : rpcBufferNew (some (child.recv.buffer.drop (child.recv.head + sizeofShell))) (-20) = .ok body

section Rewinds
variable {crypt : RpcCrypt} {state : Reception} {body : Option RpcBuffer}

theorem Rewinds.next (rewinds : Rewinds state.child body) (looping : state.phase = .looping) :
    next crypt state .round = some { state with negative := true } := by
  obtain ⟨valid, clean, uncached, linear, magic, version, plain, back, made⟩ := rewinds
  have order : state.child.recv.head < state.child.recv.tail :=
    Nat.lt_of_le_of_lt (Nat.le_add_right _ _) linear
  have flat : ¬state.child.recv.Wrapped := Nat.not_lt.mpr (Nat.le_of_lt order)
  have enough : sizeofShell ≤ rpcRbCanRead state.child.recv := by
    rw [RpcRb.canRead_linear (Nat.le_of_lt order)]
    omega
  have loaded : loadShell state.child.recv
      (.storage state.child.recv.generation state.child.recv.head) = .ok (header state.child) :=
    loadShell_taken flat (valid.content_length ▸ enough) 0
  obtain ⟨read, done, _, _, _, first⟩ := rpcIoHeader_reads valid clean uncached enough (.inl order)
  rw [rpcRbRead_linear order enough] at done
  obtain rfl := Except.ok.inj done
  have below : (header state.child).bodySize.toInt < 0 := by
    rw [back]
    decide
  rw [headerRead_complete magic version (Int.le_trans (Int.le_of_lt below) (Int.natCast_nonneg _))]
    at first
  have dispatched : rpcIoDispatch crypt { state.child with recv := taken state.child.recv sizeofShell }
      (.storage state.child.recv.generation state.child.recv.head) (header state.child).bodySize =
      .ok (state.child, ⟨state.child.fd, .storage state.child.recv.generation state.child.recv.head,
        header state.child, body⟩) := by
    rw [rpcIoDispatch, readBody_rewinds clean linear plain back loaded made]
    simp only [bind, Except.bind, loaded, pure, Except.pure, ← uncached]
  have all : state.unparsed - sizeofShell - (header state.child).bodySize.toInt = state.unparsed := by
    rw [back, sizeofShell]
    omega
  change rpcIoHeader state.child = .ok (.complete
    { state.child with recv := taken state.child.recv sizeofShell } _ _) at first
  simp only [Reception.next, looping, ne_eq, not_true_eq_false, ↓reduceIte, first, dispatched, all,
    decide_eq_true below, Bool.or_true]

theorem Rewinds.run (rewinds : Rewinds state.child body) (looping : state.phase = .looping)
    (count : Nat) :
    (system crypt).run state (List.replicate (count + 1) .round) =
      some { state with negative := true } := by
  have step (negative : Bool) : Reception.next crypt { state with negative } .round =
      some { state with negative := true } := Rewinds.next rewinds looping
  have runs (negative : Bool) :
      (system crypt).run { state with negative } (List.replicate (count + 1) .round) =
        some { state with negative := true } := by
    induction count generalizing negative with
    | zero => exact System.run_one (step negative)
    | succ count ih => exact System.run_cons (step negative) (ih true)
  exact runs state.negative

end Rewinds

private theorem deliver_fresh (crypt : RpcCrypt) (fd : Int) {chunk : Bytes} (present : chunk ≠ [])
    (short : chunk.length < rpcIoDefGrowSize) :
    (system crypt).next (fresh fd) (.deliver chunk) =
      some ⟨{ rpcIoNew fd with recv := appended (rpcIoNew fd).recv chunk }, chunk.length, .looping,
        false⟩ := by
  have valid : (rpcIoNew fd).recv.Valid := rpcRbNew_valid (by decide) (by decide)
  have linear : ¬(rpcIoNew fd).recv.Wrapped := Nat.lt_irrefl 0
  have room : chunk.length < rpcRbCanWrite (rpcIoNew fd).recv := short
  have behind : (rpcIoNew fd).recv.tail + chunk.length < (rpcIoNew fd).recv.capacity := by
    change 0 + chunk.length < _
    rwa [Nat.zero_add]
  have written : (rpcRbWrite (rpcIoNew fd).recv chunk >>= fun written => written.rb.sound) =
      .ok (appended (rpcIoNew fd).recv chunk) := by
    rw [rpcRbWrite_room valid linear room behind]
    rfl
  have ready : ¬((fresh fd).phase ≠ .idle ∨ chunk = []) := not_or.mpr ⟨not_not.mpr rfl, present⟩
  have child : (fresh fd).child = rpcIoNew fd := rfl
  have unparsed : (fresh fd).unparsed = 0 := rfl
  simp only [system, next, if_neg ready, child, written, unparsed, Int.zero_add]
  rfl

/-- A header whose body has -20 bytes, and one more byte. -/
private def backShell : RpcShell := { plainShell 1 2 reqTypeGet 0 with bodySize := -20 }

private theorem rewinds_back :
    Rewinds { rpcIoNew 7 with recv := appended (rpcIoNew 7).recv (backShell.bytes ++ [0]) }
      (some (.filled [])) := by
  have valid : (rpcIoNew 7).recv.Valid := rpcRbNew_valid (by decide) (by decide)
  have linear : ¬(rpcIoNew 7).recv.Wrapped := Nat.lt_irrefl 0
  have length : (backShell.bytes ++ [0]).length = 21 := rfl
  have content : (appended (rpcIoNew 7).recv (backShell.bytes ++ [0])).content =
      backShell.bytes ++ [0] := by
    rw [appended_content valid linear (by rw [length]; decide)]
    exact congrArg (· ++ _) (rpcRbNew_content _ _)
  have front : header { rpcIoNew 7 with
      recv := appended (rpcIoNew 7).recv (backShell.bytes ++ [0]) } = backShell := by
    rw [header, content, List.take_left' (RpcShell.bytes_length _), RpcShell.ofBytes_bytes]
  refine ⟨appended_valid valid (by rw [length]; decide), rfl, rfl, by decide, ?_, ?_, ?_, ?_, ?_⟩
  · rw [front]
    rfl
  · rw [front]
    rfl
  · rw [front]
    rfl
  · rw [front]
    rfl
  · have memory : (appended (rpcIoNew 7).recv (backShell.bytes ++ [0])).buffer.drop (0 + sizeofShell) =
        0 :: (freshBlock rpcIoDefGrowSize).drop (0 + (backShell.bytes ++ [0]).length) := by
      change (splice (freshBlock rpcIoDefGrowSize) 0 (backShell.bytes ++ [0])).drop _ = _
      rw [splice, List.take_zero, List.nil_append, List.append_assoc, Nat.zero_add,
        List.drop_left' (RpcShell.bytes_length _), List.singleton_append]
    change rpcBufferNew (some ((appended (rpcIoNew 7).recv (backShell.bytes ++ [0])).buffer.drop
      (0 + sizeofShell))) (-20) = _
    rw [memory]
    simp [rpcBufferNew, sizeOr, strlen, cstring, slice, bind, Except.bind, pure, Except.pure]

/-- The header is dispatched, and the call never ends. -/
theorem not_kept_negative :
    ∃ looping, (system noCiphers).run (fresh 7) [.deliver (backShell.bytes ++ [0])] = some looping ∧
      ∀ count, ∃ after,
        (system noCiphers).run looping (List.replicate (count + 1) .round) = some after ∧
          after.phase = .looping ∧ ¬after.Kept := by
  let chunk := backShell.bytes ++ [0]
  let looping : Reception :=
    ⟨{ rpcIoNew 7 with recv := appended (rpcIoNew 7).recv chunk }, chunk.length, .looping, false⟩
  have delivered : (system noCiphers).next (fresh 7) (.deliver chunk) = some looping :=
    deliver_fresh noCiphers 7 (by simp [chunk]) (by decide)
  have rewinds : Rewinds looping.child (some (.filled [])) := rewinds_back
  refine ⟨looping, System.run_one delivered, fun count => ?_⟩
  refine ⟨_, rewinds.run rfl count, rfl, fun kept => ?_⟩
  cases kept.refuses

end Reception
end Livezure.Rpc
