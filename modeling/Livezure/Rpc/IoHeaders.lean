import Livezure.Rpc.IoWorker

/-! Where the headers of outstanding tasks stay intact: the places of different
workers lie apart in the parsed part of the storage. -/
namespace Livezure.Rpc
open Livezure.Core

def Place.offset : Place → Nat
  | .storage _ offset => offset
  | .ret _ => 0

def shellAt (recv : RpcRb) (offset : Nat) : RpcShell :=
  .ofBytes ((recv.buffer.drop offset).take sizeofShell)

private theorem loadShell_at {recv : RpcRb} (room : offset + sizeofShell ≤ recv.buffer.length) :
    loadShell recv (.storage recv.generation offset) = .ok (shellAt recv offset) := by
  rw [loadShell, RpcRb.load_storage recv offset sizeofShell room]
  rfl

/-! ### Writes through a header pointer -/

/-- A write inside the header at `offset`, in the parsed part of the storage. -/
structure Rewritten (recv after : RpcRb) (offset : Nat) : Prop where
  valid : after.Valid
  clean : after.strayed = recv.strayed
  head : after.head = recv.head
  tail : after.tail = recv.tail
  generation : after.generation = recv.generation
  content : after.content = recv.content
  others : ∀ other, other + sizeofShell ≤ offset ∨ offset + sizeofShell ≤ other →
    other + sizeofShell ≤ recv.buffer.length → shellAt after other = shellAt recv other

private theorem store_rewritten {recv : RpcRb} (valid : recv.Valid) (linear : ¬ recv.Wrapped)
    (parsed : offset + sizeofShell ≤ recv.head) (inside : start + bytes.length ≤ sizeofShell) :
    ∃ after, recv.store (.storage recv.generation offset) start bytes = .ok after ∧
      Rewritten recv after offset ∧ after.buffer = splice recv.buffer (offset + start) bytes := by
  have storage := valid.storage
  have headLt := valid.head_lt
  have order : recv.head ≤ recv.tail := Nat.not_lt.mp linear
  have room : offset + start + bytes.length ≤ recv.buffer.length := by omega
  refine ⟨{ recv with buffer := splice recv.buffer (offset + start) bytes }, ?_, ?_, rfl⟩
  · simp only [RpcRb.store, ↓reduceIte, bind, Except.bind, copyInto_ok room, pure, Except.pure]
  · refine ⟨⟨by rw [← storage]; exact splice_length room, headLt, valid.tail_lt, valid.expand_pos⟩,
      rfl, rfl, rfl, rfl, ?_, ?_⟩
    · have same : ({ recv with buffer := splice recv.buffer (offset + start) bytes } : RpcRb).content =
          ((splice recv.buffer (offset + start) bytes).drop recv.head).take (recv.tail - recv.head) :=
        RpcRb.content_linear order
      rw [same, RpcRb.content_linear order, splice_after room (by omega)]
    · intro other apart within
      simp only [shellAt]
      rcases apart with before | behind
      · rw [splice_before (by omega) (by omega)]
      · rw [splice_after room (by omega)]

private theorem window_length {recv : RpcRb} (room : offset + sizeofShell ≤ recv.buffer.length) :
    ((recv.buffer.drop offset).take sizeofShell).length = sizeofShell := by
  rw [List.length_take, List.length_drop]
  omega

private theorem storeReq_at {recv : RpcRb} (valid : recv.Valid) (linear : ¬ recv.Wrapped)
    (parsed : offset + sizeofShell ≤ recv.head) (req : BitVec 2) :
    ∃ after, storeReq recv (.storage recv.generation offset) req = .ok after ∧
      Rewritten recv after offset ∧ shellAt after offset = { shellAt recv offset with req } := by
  have storage := valid.storage
  have headLt := valid.head_lt
  have room : offset + sizeofShell ≤ recv.buffer.length := by omega
  have inside : 11 + [{ shellAt recv offset with req }.flags].length ≤ sizeofShell := by
    simp [sizeofShell]
  obtain ⟨after, stored, rewritten, buffer⟩ := store_rewritten valid linear parsed inside
  refine ⟨after, ?_, rewritten, ?_⟩
  · simp only [storeReq, loadShell_at room, bind, Except.bind, stored]
  · rw [shellAt, buffer, splice_window inside room]
    exact RpcShell.ofBytes_flags (window_length room) req

private theorem storeBodySize_at {recv : RpcRb} (valid : recv.Valid) (linear : ¬ recv.Wrapped)
    (parsed : offset + sizeofShell ≤ recv.head) (bodySize : BitVec 32) :
    ∃ after, storeBodySize recv (.storage recv.generation offset) bodySize = .ok after ∧
      Rewritten recv after offset ∧
      shellAt after offset = { shellAt recv offset with bodySize } := by
  have storage := valid.storage
  have headLt := valid.head_lt
  have room : offset + sizeofShell ≤ recv.buffer.length := by omega
  have inside : 12 + (leBytes sizeofSize bodySize.toNat).length ≤ sizeofShell := by
    simp [sizeofShell, sizeofSize]
  obtain ⟨after, stored, rewritten, buffer⟩ := store_rewritten valid linear parsed inside
  refine ⟨after, stored, rewritten, ?_⟩
  rw [shellAt, buffer, splice_window inside room]
  exact RpcShell.ofBytes_bodySize (window_length room) bodySize

/-! ### One worker -/

/-- The header in memory as the worker has left it. -/
def Worker.current (worker : Worker) : RpcShell :=
  match worker.phase with
  | .crypt | .setBodySize => { worker.header with req := reqTypePost }
  | .reply => { worker.header with req := reqTypePost, bodySize := worker.answer.getD 0 }
  | .category | .subCategory | .req | .setReq | .done => worker.header

/-- The worker's header lies in the storage before `limit`. -/
structure Worker.Holds (worker : Worker) (recv : RpcRb) (limit : Nat) : Prop where
  place : worker.shell = .storage recv.generation worker.shell.offset
  parsed : worker.shell.offset + sizeofShell ≤ limit
  memory : shellAt recv worker.shell.offset = worker.current
  pending : worker.reply = none

/-- What an access of a worker leaves as it was. -/
structure WorkerStep (recv after : RpcRb) (worker next : Worker) (limit : Nat) : Prop where
  rewritten : Rewritten recv after worker.shell.offset
  shell : next.shell = worker.shell
  holds : next.phase ≠ .done → next.Holds after limit
  faithful : next.Faithful

theorem Rewritten.refl {recv : RpcRb} (valid : recv.Valid) (offset : Nat) :
    Rewritten recv recv offset :=
  ⟨valid, rfl, rfl, rfl, rfl, rfl, fun _ _ _ => rfl⟩

/-- Every access of an outstanding worker succeeds: one case for each phase. -/
theorem Worker.step_ok {worker : Worker} {recv : RpcRb} (valid : recv.Valid)
    (linear : ¬ recv.Wrapped) (below : limit ≤ recv.head) (holds : worker.Holds recv limit)
    (faithful : worker.Faithful) (answer : Option (BitVec 32)) (active : worker.phase ≠ .done) :
    ∃ after next, worker.step recv answer = .ok (after, next) ∧
      WorkerStep recv after worker next limit := by
  obtain ⟨place, parsed, memory, pending⟩ := holds
  have storage := valid.storage
  have headLt := valid.head_lt
  have before : worker.shell.offset + sizeofShell ≤ recv.head := Nat.le_trans parsed below
  have room : worker.shell.offset + sizeofShell ≤ recv.buffer.length := by omega
  have loaded : loadShell recv worker.shell = .ok worker.current := by
    rw [place, loadShell_at room, memory]
  cases phase : worker.phase with
  | category =>
    simp only [Worker.current, phase] at loaded memory
    refine ⟨recv, { worker with category := some worker.header.category, phase := .subCategory },
      ?_, .refl valid _, rfl, fun _ => ⟨place, parsed, memory, pending⟩, ?_⟩
    · simp only [Worker.step, phase, loaded, bind, Except.bind, pure, Except.pure]
    · exact { faithful with category := fun value same => (Option.some.inj same).symm }
  | subCategory =>
    simp only [Worker.current, phase] at loaded memory
    refine ⟨recv, { worker with
      subCategory := some worker.header.subCategory, answer, phase := .req },
      ?_, .refl valid _, rfl, fun _ => ⟨place, parsed, memory, pending⟩, ?_⟩
    · simp only [Worker.step, phase, loaded, bind, Except.bind, pure, Except.pure]
    · exact { faithful with
        subCategory := fun value same => (Option.some.inj same).symm
        reply := fun shell same => by
          rw [pending] at same
          cases same }
  | req =>
    simp only [Worker.current, phase] at loaded memory
    by_cases post : worker.header.req = reqTypePost
    · refine ⟨recv, { worker with req := some worker.header.req, phase := .done },
        ?_, .refl valid _, rfl, fun other => absurd rfl other, ?_⟩
      · simp only [Worker.step, phase, loaded, bind, Except.bind, pure, Except.pure, if_pos post]
      · exact { faithful with req := fun value same => (Option.some.inj same).symm }
    · refine ⟨recv, { worker with req := some worker.header.req, phase := .setReq },
        ?_, .refl valid _, rfl, fun _ => ⟨place, parsed, memory, pending⟩, ?_⟩
      · simp only [Worker.step, phase, loaded, bind, Except.bind, pure, Except.pure, if_neg post]
      · exact { faithful with req := fun value same => (Option.some.inj same).symm }
  | setReq =>
    obtain ⟨after, stored, rewritten, seen⟩ := storeReq_at valid linear before reqTypePost
    rw [← place] at stored
    rw [memory] at seen
    simp only [Worker.current, phase] at seen
    refine ⟨after, { worker with phase := .crypt }, ?_, rewritten, rfl,
      fun _ => ⟨by rw [rewritten.generation]; exact place, parsed, seen, pending⟩, { faithful with }⟩
    simp only [Worker.step, phase, stored, bind, Except.bind, pure, Except.pure]
  | crypt =>
    simp only [Worker.current, phase] at loaded memory
    cases answered : worker.answer with
    | none =>
      refine ⟨recv, { worker with phase := .setBodySize }, ?_, .refl valid _, rfl,
        fun _ => ⟨place, parsed, memory, pending⟩, { faithful with }⟩
      simp only [Worker.step, phase, answered]
    | some size =>
      refine ⟨recv, { worker with crypt := some worker.header.crypt, phase := .setBodySize }, ?_,
        .refl valid _, rfl, fun _ => ⟨place, parsed, memory, pending⟩, ?_⟩
      · simp only [Worker.step, phase, answered, loaded, bind, Except.bind, pure, Except.pure]
      · exact { faithful with crypt := fun value same => (Option.some.inj same).symm }
  | setBodySize =>
    obtain ⟨after, stored, rewritten, seen⟩ :=
      storeBodySize_at valid linear before (worker.answer.getD 0)
    rw [← place] at stored
    rw [memory] at seen
    simp only [Worker.current, phase] at seen
    refine ⟨after, { worker with phase := .reply }, ?_, rewritten, rfl,
      fun _ => ⟨by rw [rewritten.generation]; exact place, parsed, seen, pending⟩, { faithful with }⟩
    simp only [Worker.step, phase, stored, bind, Except.bind, pure, Except.pure]
  | reply =>
    simp only [Worker.current, phase] at loaded
    refine ⟨recv, { worker with
      reply := some { worker.header with
        req := reqTypePost, bodySize := worker.answer.getD 0 }, phase := .done },
      ?_, .refl valid _, rfl, fun other => absurd rfl other, ?_⟩
    · simp only [Worker.step, phase, loaded, bind, Except.bind, pure, Except.pure]
    · exact { faithful with reply := fun shell same => (Option.some.inj same).symm }
  | done => exact absurd phase active

theorem Worker.Holds.mono {worker : Worker} {recv after : RpcRb} (holds : worker.Holds recv limit)
    (generation : after.generation = recv.generation)
    (memory : shellAt after worker.shell.offset = shellAt recv worker.shell.offset)
    (above : limit ≤ limit') : worker.Holds after limit' :=
  ⟨by rw [generation]; exact holds.place, Nat.le_trans holds.parsed above,
    memory.trans holds.memory, holds.pending⟩

/-! ### The connection -/

/-- The header that was taken off the ring stands right before its body. -/
structure TakenHeader.Holds (taken : TakenHeader) (recv : RpcRb) : Prop where
  place : taken.shell = .storage recv.generation taken.shell.offset
  parsed : taken.shell.offset + sizeofShell = recv.head
  memory : shellAt recv taken.shell.offset = taken.header
  size : taken.bodySize = taken.header.bodySize
  within : taken.bodySize.toInt ≤ recv.content.length

/-- The end of the part of the storage that holds the headers of tasks. -/
def Connection.limit (connection : Connection) : Nat :=
  match connection.taken with
  | none => connection.child.recv.head
  | some taken => taken.shell.offset

structure HeadersHeld (connection : Connection) : Prop where
  valid : connection.child.recv.Valid
  clean : connection.child.recv.strayed = false
  linear : ¬ connection.child.recv.Wrapped
  idle : connection.calling = false → connection.taken = none
  taken : ∀ taken, connection.taken = some taken → taken.Holds connection.child.recv
  holds : ∀ worker ∈ connection.workers, worker.phase ≠ .done →
    worker.Holds connection.child.recv connection.limit
  apart : ∀ (first second : Nat) (early late : Worker), first < second →
    connection.workers[first]? = some early → connection.workers[second]? = some late →
    early.phase ≠ .done → late.phase ≠ .done →
    early.shell.offset + sizeofShell ≤ late.shell.offset
  faithful : ∀ worker ∈ connection.workers, worker.Faithful
  unharmed : connection.harmed = false

namespace HeadersHeld
variable {connection : Connection}

theorem limit_le (held : HeadersHeld connection) :
    connection.limit ≤ connection.child.recv.head := by
  unfold Connection.limit
  split
  · exact Nat.le_refl _
  · rename_i taken same
    have parsed := (held.taken taken same).parsed
    omega

theorem accepted (fd : Int) : HeadersHeld (.accepted fd) := by
  refine ⟨rpcRbNew_valid (by decide) (by decide), rfl, ?_, fun _ => rfl, ?_, ?_, ?_, ?_, rfl⟩
  · exact Nat.not_lt.mpr (Nat.le_refl 0)
  · intro taken impossible
    cases impossible
  · intro worker member
    cases member
  · intro first second early late _ impossible
    cases impossible
  · intro worker member
    cases member

/-- A chunk that meets the condition joins the unread bytes: in a new storage, if it
replaces it, or behind them. -/
theorem enqueue_written (held : HeadersHeld connection)
    (met : HeadersGuard crypt (.ok connection) (.enqueue inbuf)) :
    ∃ recv, connection.enqueue inbuf =
        .ok { connection with child := { connection.child with recv }, calling := true } ∧
      recv.Valid ∧ recv.strayed = false ∧ ¬ recv.Wrapped ∧
      recv.content = connection.child.recv.content ++ inbuf ∧
      ((∀ worker ∈ connection.workers, worker.phase = .done) ∨
        recv = appended connection.child.recv inbuf) := by
  have storage := held.valid.storage
  have headLt := held.valid.head_lt
  have order : connection.child.recv.head ≤ connection.child.recv.tail := Nat.not_lt.mp held.linear
  simp only [HeadersGuard] at met
  by_cases large : connection.child.recv.capacity ≤
      rpcRbCanRead connection.child.recv + inbuf.length
  · rw [if_pos large] at met
    obtain ⟨capacity, idle⟩ := met
    have positive := held.valid.expand_pos
    have valid := grown_valid held.valid inbuf.length
    have free : rpcRbCanWrite connection.child.recv ≤ inbuf.length := by
      rw [rpcRbCanWrite]
      omega
    have room : (grown connection.child.recv inbuf.length).tail + inbuf.length <
        (grown connection.child.recv inbuf.length).capacity := by
      simp only [grown, rpcRbCapacityNew]
      omega
    have flat : ¬ (grown connection.child.recv inbuf.length).Wrapped := Nat.not_lt.mpr (Nat.zero_le _)
    have content := appended_content valid flat (Nat.le_of_lt room)
    rw [grown_content held.valid] at content
    have sound := sound_clean (appended (grown connection.child.recv inbuf.length) inbuf) held.clean
    refine ⟨_, by
      simp only [Connection.enqueue,
        rpcRbWrite_grown held.valid held.clean held.linear free (fun _ => capacity), bind,
        Except.bind, sound, pure, Except.pure], appended_valid valid room, held.clean,
      Nat.not_lt.mpr (Nat.zero_le _), content, .inl idle⟩
  · rw [if_neg large] at met
    have free : inbuf.length < rpcRbCanWrite connection.child.recv := by
      rw [rpcRbCanWrite]
      omega
    have sound := sound_clean (appended connection.child.recv inbuf) held.clean
    refine ⟨_, by
      simp only [Connection.enqueue, rpcRbWrite_room held.valid held.linear free met, bind,
        Except.bind, sound, pure, Except.pure], appended_valid held.valid met, held.clean, ?_,
      appended_content held.valid held.linear (Nat.le_of_lt met), .inr rfl⟩
    simp only [RpcRb.Wrapped, appended]
    omega

theorem enqueue_held (held : HeadersHeld connection) (idle : connection.calling = false)
    (met : HeadersGuard crypt (.ok connection) (.enqueue inbuf)) :
    ∃ after, connection.enqueue inbuf = .ok after ∧ HeadersHeld after := by
  have storage := held.valid.storage
  have tailLt := held.valid.tail_lt
  have order : connection.child.recv.head ≤ connection.child.recv.tail := Nat.not_lt.mp held.linear
  have none := held.idle idle
  obtain ⟨recv, done, valid, clean, linear, _, memory⟩ := held.enqueue_written met
  refine ⟨_, done, valid, clean, linear, ?_, ?_, ?_, held.apart, held.faithful, held.unharmed⟩
  · intro impossible
    cases impossible
  · intro taken same
    rw [none] at same
    cases same
  · intro worker member active
    rcases memory with finished | rfl
    · -- The storage is replaced, and nobody has a pointer into it.
      exact absurd (finished worker member) active
    · have own := held.holds worker member active
      have parsed := own.parsed
      have limit : connection.limit = connection.child.recv.head := by
        rw [Connection.limit, none]
      rw [limit] at parsed
      refine own.mono rfl ?_ ?_
      · simp only [shellAt, appended]
        rw [splice_before (by omega) (by omega)]
      · rw [limit]
        simp only [Connection.limit, none]
        exact Nat.le_refl _

private theorem taken_shell (recv : RpcRb) (count offset : Nat) :
    shellAt (Rpc.taken recv count) offset = shellAt recv offset := rfl

private theorem ended (held : HeadersHeld connection) (none : connection.taken = none)
    {child : RpcIo} (within : count ≤ connection.child.recv.content.length)
    (recv : child.recv = Rpc.taken connection.child.recv count) :
    HeadersHeld { connection with child, calling := false } := by
  obtain ⟨valid, linear, _⟩ := taken_queue held.valid held.linear within
  have limit : connection.limit = connection.child.recv.head := by rw [Connection.limit, none]
  refine ⟨recv ▸ valid, by rw [recv]; exact held.clean, recv ▸ linear, fun _ => none, ?_, ?_,
    held.apart, held.faithful, held.unharmed⟩
  · intro taken same
    rw [none] at same
    cases same
  · intro worker member active
    refine (held.holds worker member active).mono (by rw [recv]; rfl) ?_ ?_
    · rw [recv, taken_shell]
    · simp only [Connection.limit, none, recv, Rpc.taken]
      exact Nat.le_add_right _ _

theorem header_held (held : HeadersHeld connection) (none : connection.taken = none)
    (calling : connection.calling = true) (uncached : connection.child.shellCached = false) :
    ∃ after, connection.header = .ok after ∧ HeadersHeld after := by
  by_cases few : connection.child.recv.content.length < sizeofShell
  · refine ⟨_, by
      simp only [Connection.header, rpcIoHeader_short held.valid uncached few, bind, Except.bind,
        pure, Except.pure]; rfl, ?_⟩
    exact held.ended none (Nat.zero_le _) rfl
  · have enough : sizeofShell ≤ connection.child.recv.content.length := Nat.not_lt.mp few
    have taken := rpcIoHeader_linear held.valid held.clean held.linear uncached enough
    rcases headerOutcome_cases connection.child
        (.ofBytes (connection.child.recv.content.take sizeofShell)) with
      ⟨after, outcome, recv⟩ | ⟨after, outcome, recv⟩ | ⟨outcome, present⟩
    · rw [outcome] at taken
      refine ⟨_, by
        simp only [Connection.header, taken, bind, Except.bind, pure, Except.pure]; rfl, ?_⟩
      exact held.ended none enough recv
    · rw [outcome] at taken
      refine ⟨_, by
        simp only [Connection.header, taken, bind, Except.bind, pure, Except.pure]; rfl, ?_⟩
      exact held.ended none enough recv
    · -- The header is complete: from here on its place is the limit of the tasks' places.
      rw [outcome] at taken
      obtain ⟨valid, linear, content⟩ := taken_queue held.valid held.linear enough
      have limit : connection.limit = connection.child.recv.head := by rw [Connection.limit, none]
      obtain ⟨same, room⟩ := content_at held.linear enough
      refine ⟨_, by
        simp only [Connection.header, taken, bind, Except.bind, pure, Except.pure]; rfl, ?_⟩
      refine ⟨valid, held.clean, linear, ?_, ?_, ?_, held.apart, held.faithful, held.unharmed⟩
      · intro idle
        rw [calling] at idle
        cases idle
      · intro header found
        rw [← Option.some.inj found]
        refine ⟨rfl, rfl, ?_, rfl, ?_⟩
        · exact congrArg RpcShell.ofBytes same
        · simp only [content, List.length_drop]
          omega
      · intro worker member active
        refine (held.holds worker member active).mono rfl (taken_shell _ _ _) ?_
        rw [limit]
        exact Nat.le_refl _

theorem dispatch_held (held : HeadersHeld connection) {header : TakenHeader}
    (found : connection.taken = some header)
    (met : HeadersGuard crypt (.ok connection) .dispatch) :
    ∃ after, connection.dispatch crypt header = .ok after ∧ HeadersHeld after := by
  obtain ⟨place, parsed, memory, size, within⟩ := held.taken header found
  obtain ⟨positive, _, readable⟩ := met header found
  obtain ⟨body, received⟩ : ∃ body, receivedBody crypt header.header
      (connection.child.recv.content.take header.bodySize.toInt.toNat) = .ok body := by
    cases outcome : receivedBody crypt header.header
        (connection.child.recv.content.take header.bodySize.toInt.toNat) with
    | error fault =>
      rw [outcome] at readable
      cases readable
    | ok body => exact ⟨body, rfl⟩
  obtain ⟨count, sized⟩ : ∃ count : Nat, header.bodySize.toInt = count :=
    ⟨header.bodySize.toInt.toNat, (Int.toNat_of_nonneg positive).symm⟩
  have storage := held.valid.storage
  have headLt := held.valid.head_lt
  have limit : connection.limit = header.shell.offset := by rw [Connection.limit, found]
  have inside : count ≤ connection.child.recv.content.length := by omega
  obtain ⟨valid, linear, _⟩ := taken_queue held.valid held.linear inside
  have loads : ∀ count, loadShell (Rpc.taken connection.child.recv count) header.shell =
      .ok header.header := by
    intro count
    have room : header.shell.offset + sizeofShell ≤
        (Rpc.taken connection.child.recv count).buffer.length := by
      simp only [Rpc.taken]
      omega
    rw [place]
    exact (loadShell_at room).trans (congrArg _ memory)
  rw [sized, Int.toNat_natCast] at received
  rw [size] at sized
  have dispatched : rpcIoDispatch crypt connection.child header.shell header.header.bodySize = _ :=
    rpcIoDispatch_linear held.valid held.clean held.linear sized inside loads
  rw [received, ← size] at dispatched
  refine ⟨_, by
    simp only [Connection.dispatch, dispatched, bind, Except.bind, pure, Except.pure]; rfl, ?_⟩
  have below : header.shell.offset + sizeofShell ≤
      (Rpc.taken connection.child.recv count).head := by
    simp only [Rpc.taken]
    omega
  refine ⟨valid, held.clean, linear, fun _ => rfl, ?_, ?_, ?_, ?_, held.unharmed⟩
  · intro taken impossible
    cases impossible
  · intro worker member active
    rcases List.mem_append.mp member with old | new
    · refine (held.holds worker old active).mono rfl (taken_shell _ _ _) ?_
      rw [limit]
      simp only [Connection.limit]
      omega
    · rw [List.mem_singleton.mp new]
      exact ⟨place, below, memory, rfl⟩
  · intro first second early late order foundEarly foundLate activeEarly activeLate
    simp only at foundEarly foundLate
    by_cases last : second < connection.workers.length
    · rw [List.getElem?_append_left last] at foundLate
      rw [List.getElem?_append_left (Nat.lt_trans order last)] at foundEarly
      exact held.apart first second early late order foundEarly foundLate activeEarly activeLate
    · rw [List.getElem?_append_right (Nat.not_lt.mp last)] at foundLate
      have same : late = .fresh header.shell header.header := by
        have member := List.mem_of_getElem? foundLate
        exact List.mem_singleton.mp member
      have bound : second - connection.workers.length < 1 :=
        (List.getElem?_eq_some_iff.mp foundLate).1
      rw [List.getElem?_append_left (by omega)] at foundEarly
      have own := held.holds early (List.mem_of_getElem? foundEarly) activeEarly
      rw [same]
      exact limit ▸ own.parsed
  · intro worker member
    rcases List.mem_append.mp member with old | new
    · exact held.faithful worker old
    · rw [List.mem_singleton.mp new]
      constructor <;> intro _ impossible <;> cases impossible

private theorem set_same {workers : List Worker} (found : workers[index]? = some worker) :
    workers.set index worker = workers := by
  obtain ⟨bound, rfl⟩ := List.getElem?_eq_some_iff.mp found
  exact List.set_getElem_self bound

private theorem worked (held : HeadersHeld connection) {worker next : Worker} {recv : RpcRb}
    (found : connection.workers[index]? = some worker) (active : worker.phase ≠ .done)
    (step : WorkerStep connection.child.recv recv worker next connection.limit) :
    HeadersHeld { connection with
      child := { connection.child with recv }
      workers := connection.workers.set index next
      harmed := connection.harmed || recv.content != connection.child.recv.content } := by
  have rewritten := step.rewritten
  have storage := held.valid.storage
  have headLt := held.valid.head_lt
  have below := held.limit_le
  have limit : Connection.limit { connection with
      child := { connection.child with recv }
      workers := connection.workers.set index next
      harmed := connection.harmed || recv.content != connection.child.recv.content } =
        connection.limit := by
    simp only [Connection.limit, rewritten.head]
  have inside : index < connection.workers.length := (List.getElem?_eq_some_iff.mp found).1
  -- Another outstanding worker's header lies apart from the one written to.
  have others : ∀ place other, place ≠ index → connection.workers[place]? = some other →
      other.phase ≠ .done → other.Holds recv connection.limit := by
    intro place other different at_place outstanding
    have own := held.holds other (List.mem_of_getElem? at_place) outstanding
    have parsed := own.parsed
    refine own.mono rewritten.generation ?_ (Nat.le_refl _)
    apply rewritten.others _ _ (by omega)
    rcases Nat.lt_or_gt_of_ne different with before | behind
    · exact Or.inl (held.apart place index other worker before at_place found outstanding active)
    · exact Or.inr (held.apart index place worker other behind found at_place active outstanding)
  have cases_set : ∀ (place : Nat) (now : Worker),
      (connection.workers.set index next)[place]? = some now →
      (place = index ∧ now = next) ∨ (place ≠ index ∧ connection.workers[place]? = some now) := by
    intro place now at_place
    rw [List.getElem?_set] at at_place
    split at at_place
    · rename_i same
      exact Or.inl ⟨same.symm, by simpa [inside] using at_place.symm⟩
    · rename_i different
      exact Or.inr ⟨fun same => different same.symm, at_place⟩
  refine ⟨rewritten.valid, by rw [rewritten.clean]; exact held.clean, ?_, held.idle, ?_, ?_, ?_, ?_, ?_⟩
  · intro wrapped
    apply held.linear
    rwa [RpcRb.Wrapped, rewritten.head, rewritten.tail] at wrapped
  · intro header same
    obtain ⟨place, parsed, memory, size, within⟩ := held.taken header same
    have own := held.holds worker (List.mem_of_getElem? found) active
    have before := own.parsed
    have found : connection.taken = some header := same
    simp only [Connection.limit, found] at before
    refine ⟨by rw [rewritten.generation]; exact place, parsed.trans rewritten.head.symm, ?_, size,
      by rw [rewritten.content]; exact within⟩
    rw [rewritten.others _ (Or.inr before) (by omega)]
    exact memory
  · intro other member outstanding
    rw [limit]
    obtain ⟨place, at_place⟩ := List.getElem?_of_mem member
    rcases cases_set place other at_place with ⟨_, rfl⟩ | ⟨different, found⟩
    · exact step.holds outstanding
    · exact others place other different found outstanding
  · intro first second early late order foundEarly foundLate activeEarly activeLate
    -- The worker that moved still points to the same place.
    have old : ∀ (place : Nat) (now : Worker),
        (connection.workers.set index next)[place]? = some now → now.phase ≠ .done →
        ∃ was : Worker, connection.workers[place]? = some was ∧ was.phase ≠ .done ∧
          was.shell = now.shell := by
      intro place now at_place outstanding
      rcases cases_set place now at_place with ⟨rfl, rfl⟩ | ⟨_, found⟩
      · exact ⟨worker, found, active, step.shell.symm⟩
      · exact ⟨now, found, outstanding, rfl⟩
    obtain ⟨earlyWas, earlyFound, earlyActive, earlyShell⟩ := old first early foundEarly activeEarly
    obtain ⟨lateWas, lateFound, lateActive, lateShell⟩ := old second late foundLate activeLate
    rw [← earlyShell, ← lateShell]
    exact held.apart first second earlyWas lateWas order earlyFound lateFound earlyActive lateActive
  · intro other member
    rcases List.mem_or_eq_of_mem_set member with old | new
    · exact held.faithful other old
    · rw [new]
      exact step.faithful
  · simp only [held.unharmed, rewritten.content, bne_self_eq_false, Bool.or_false]

theorem work_held (held : HeadersHeld connection) {worker : Worker}
    (found : connection.workers[index]? = some worker) (answer : Option (BitVec 32)) :
    ∃ after, connection.work index worker answer = .ok after ∧ HeadersHeld after := by
  have member := List.mem_of_getElem? found
  by_cases finished : worker.phase = .done
  · refine ⟨connection, ?_, held⟩
    simp only [Connection.work, Worker.step, finished, bind, Except.bind, pure, Except.pure,
      set_same found, bne_self_eq_false, Bool.or_false]
  · obtain ⟨recv, next, stepped, step⟩ := Worker.step_ok held.valid held.linear held.limit_le
      (held.holds worker member finished) (held.faithful worker member) answer finished
    refine ⟨_, by
      simp only [Connection.work, stepped, bind, Except.bind, pure, Except.pure]; rfl, ?_⟩
    exact held.worked found finished step

end HeadersHeld

/-- In every interleaving whose steps meet the condition, the headers of all tasks
reach their workers as they were sent, and no write of a worker reaches the bytes
that are not parsed yet. -/
theorem headersSafe_of_guard (crypt : RpcCrypt) {state : Except Fault Connection}
    (reached : (Connection.system crypt).Reachable (HeadersGuard crypt) state) :
    HeadersSafe state := by
  have held : ∃ connection, state = .ok connection ∧ HeadersHeld connection := by
    refine reached.invariant
      (fun state => ∃ connection, state = .ok connection ∧ HeadersHeld connection) ?_ ?_
    · rintro _ ⟨fd, rfl⟩
      exact ⟨_, rfl, .accepted fd⟩
    · rintro _ action after ⟨connection, rfl, held⟩ met step
      have moved : connection.next crypt action = some after := step
      cases action with
      | enqueue inbuf =>
        rw [Connection.next] at moved
        split at moved
        · cases moved
        · rename_i idle
          obtain ⟨next, done, kept⟩ := held.enqueue_held (by simpa using idle) met
          rw [done] at moved
          exact ⟨next, (Option.some.inj moved).symm, kept⟩
      | header =>
        rw [Connection.next] at moved
        split at moved
        · rename_i enabled
          obtain ⟨next, done, kept⟩ := held.header_held enabled.2 enabled.1 met
          rw [done] at moved
          exact ⟨next, (Option.some.inj moved).symm, kept⟩
        · cases moved
      | dispatch =>
        obtain ⟨header, found, moved⟩ := Option.map_eq_some_iff.mp moved
        obtain ⟨next, done, kept⟩ := held.dispatch_held found met
        exact ⟨next, moved.symm.trans done, kept⟩
      | work index answer =>
        obtain ⟨worker, found, moved⟩ := Option.map_eq_some_iff.mp moved
        obtain ⟨next, done, kept⟩ := held.work_held found answer
        exact ⟨next, moved.symm.trans done, kept⟩
  obtain ⟨connection, rfl, held⟩ := held
  exact ⟨held.faithful, held.unharmed⟩

/-- A get request that is answered: received, dispatched and worked on up to its reply. -/
private def answeredGet : List Connection.Action :=
  ([.enqueue (plainShell 1 2 reqTypeGet 0).bytes, .header, .dispatch, .header] :
      List Connection.Action) ++
    (List.replicate 7 (.work 0 (some 9)) : List Connection.Action)

theorem headersSafe_answeredGet :
    ∃ connection, (Connection.system noCiphers).run (.ok (.accepted 7)) answeredGet =
        some (.ok connection) ∧
      connection.workers.map Worker.reply = [some (plainShell 1 2 reqTypePost 9)] ∧
      HeadersSafe (.ok connection) := by
  have replies : ((Connection.system noCiphers).run (.ok (.accepted 7)) answeredGet).map
      (Except.map fun connection => connection.workers.map Worker.reply) =
        some (.ok [some (plainShell 1 2 reqTypePost 9)]) := by
    decide +kernel
  obtain ⟨state, run, reply⟩ := Option.map_eq_some_iff.mp replies
  obtain ⟨connection, rfl⟩ : ∃ connection, state = .ok connection := by
    cases state with
    | error fault => cases reply
    | ok connection => exact ⟨connection, rfl⟩
  have reply := Except.ok.inj reply
  refine ⟨connection, run, reply, headersSafe_of_guard noCiphers ?_⟩
  exact System.Reachable.run (.start ⟨7, rfl⟩) (by decide +kernel) run

/-- A chunk of 4096 bytes that arrives while a request waits for its worker: the
storage grows, and the worker reads the request's header from the freed block. -/
theorem headers_freed_by_growth :
    ∃ state, (Connection.system noCiphers).Reachable System.Free state ∧ ¬ HeadersSafe state := by
  refine ⟨.error .useAfterFree, ?_, id⟩
  have run : (Connection.system noCiphers).run (.ok (.accepted 7))
      [.enqueue (plainShell 1 2 reqTypeGet 0).bytes, .header, .dispatch, .header,
        .enqueue ((plainShell 1 3 reqTypePost 4076).bytes ++ List.replicate 4076 0), .work 0 none] =
      some (.error .useAfterFree) := by
    decide +kernel
  exact System.Reachable.run (.start ⟨7, rfl⟩) (System.guarded_free _ _) run

end Livezure.Rpc
