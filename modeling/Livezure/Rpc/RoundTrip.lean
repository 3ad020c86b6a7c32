import Livezure.Rpc.Crypt
import Livezure.Rpc.IoDelivery

/-! A packet from `rpc_io_make_shell` to the task that `rpc_io_enqueue` makes of it. -/
namespace Livezure.Rpc
open Livezure.Core

def rpcBufferClone (buffer : RpcBuffer) : Except Fault (Option RpcBuffer) :=
  rpcBufferNew (some buffer.chunk) buffer.chunkUsed

/-- The body in `rpc_io_make_shell`: `body_buffer` and `body_size` together. -/
def shellBody (crypt : RpcCrypt) (type : RpcCryptType) : Option RpcBuffer → Except Fault Bytes
  | none => .ok []
  | some buffer => do
    let clone ← rpcBufferClone buffer
    match ← rpcBufferEncrypt crypt clone type with
    | none => .error .nullPointer
    | some body => return body.bytes

/-- `rpc_io_make_shell`: the header afterwards, and the packet. -/
def rpcIoMakeShell (crypt : RpcCrypt) (shell : RpcShell) (buffer : Option RpcBuffer) :
    Except Fault (RpcShell × Option RpcBuffer) := do
  let body ← shellBody crypt (.ofField shell.crypt) buffer
  let shell := { shell with bodySize := BitVec.ofNat 32 body.length }
  let out ← rpcBufferNew (some (shell.bytes ++ body)) (sizeofShell + body.length : Nat)
  return (shell, out)

/-- One call of `rpc_io_enqueue` on a new connection with the whole packet makes one
task, which is what was packed. -/
def RoundTrips (sender receiver : RpcCrypt) (ioList : List RpcIo) (fd : Int) (shell : RpcShell)
    (body : Option RpcBuffer) : Prop :=
  ∃ sent out after call task, rpcIoMakeShell sender shell body = .ok (sent, some out) ∧
    rpcIoEnqueue receiver (rpcIoAdd ioList fd).1 fd out.bytes = .ok (after, call) ∧
    call.tasks = [task] ∧
    task.seen.category = shell.category ∧ task.seen.subCategory = shell.subCategory ∧
    task.seen.req = shell.req ∧ task.seen.crypt = shell.crypt ∧
    task.body.map RpcBuffer.bytes = body.map RpcBuffer.bytes

def packetSize (type : RpcCryptType) : Option RpcBuffer → Nat
  | none => sizeofShell
  | some buffer => sizeofShell + encryptedSize type buffer.chunkUsed

/-! ### Packing -/

theorem rpcBufferNew_some {source : Option Bytes} {size : Int} {buffer : RpcBuffer}
    (made : rpcBufferNew source size = .ok (some buffer)) : ∃ bytes, buffer = .filled bytes := by
  unfold rpcBufferNew at made
  split at made
  · cases made
  · split at made
    · cases made
    · obtain ⟨count, _, made⟩ := bind_ok made
      obtain ⟨bytes, _, made⟩ := bind_ok made
      exact ⟨bytes, (Option.some.inj (Except.ok.inj made)).symm⟩

theorem rpcBufferClone_filled {bytes : Bytes} (filled : bytes ≠ []) :
    rpcBufferClone (.filled bytes) = .ok (some (.filled bytes)) := by
  have positive : 0 < bytes.length := List.length_pos_iff.mpr filled
  have cloned := rpcBufferNew_filled positive
    (show bytes.length ≤ (bytes ++ [0]).length by rw [List.length_append]; omega)
  rw [List.take_left] at cloned
  exact cloned

section Packing
variable {aes : AesCipher} {type : RpcCryptType}

/-- The body of the packet, and what the receiver makes of it. -/
theorem shellBody_received (inverse : aes.Inverse) (sent received : Block rpcBufferDefGrowSize)
    (randSent randReceived : Nat → Nat) (known : type ≠ .unknown) {buffer : Option RpcBuffer}
    (filled : ∀ held ∈ buffer, ∃ bytes, held = .filled bytes ∧ bytes ≠ []) :
    ∃ body, shellBody (rpcCrypt aes sent randSent) type buffer = .ok body ∧
      sizeofShell + body.length = packetSize type buffer ∧
      (packetSize type buffer < 2 ^ 31 → ∀ shell : RpcShell, RpcCryptType.ofField shell.crypt = type →
        ∃ decrypted, receivedBody (rpcCrypt aes received randReceived) shell body = .ok decrypted ∧
          decrypted.map RpcBuffer.bytes = buffer.map RpcBuffer.bytes) := by
  cases buffer with
  | none => exact ⟨[], rfl, rfl, fun _ shell _ => ⟨none, if_pos rfl, rfl⟩⟩
  | some held =>
    obtain ⟨bytes, rfl, present⟩ := filled held rfl
    obtain ⟨encrypted, done, size, undone⟩ := rpcBufferDecrypt_rpcBufferEncrypt inverse sent received
      randSent randReceived known bytes
    have positive : 0 < bytes.length := List.length_pos_iff.mpr present
    have longer : bytes.length ≤ encryptedSize type bytes.length := by
      unfold encryptedSize
      cases type <;> simp only <;> omega
    refine ⟨encrypted.bytes, ?_, ?_, fun small shell same => ?_⟩
    · simp only [shellBody, rpcBufferClone_filled present, bind, Except.bind, done, pure, Except.pure]
    · rw [size]
      rfl
    · have whole : sizeofShell + encryptedSize type bytes.length < 2 ^ 31 := small
      obtain ⟨decrypted, undone, back⟩ := undone (by omega)
      have some_bytes : encrypted.bytes ≠ [] := by
        intro nothing
        rw [nothing, List.length_nil] at size
        omega
      refine ⟨some decrypted, ?_, ?_⟩
      · rw [receivedBody, if_neg some_bytes, same, undone]
      · simp only [Option.map_some, back, RpcBuffer.filled_bytes]

theorem rpcIoMakeShell_eq {crypt : RpcCrypt} {shell : RpcShell} {buffer : Option RpcBuffer}
    {body : Bytes} (packed : shellBody crypt (.ofField shell.crypt) buffer = .ok body) :
    rpcIoMakeShell crypt shell buffer =
      .ok ({ shell with bodySize := BitVec.ofNat 32 body.length },
        some (.filled ({ shell with bodySize := BitVec.ofNat 32 body.length : RpcShell}.bytes ++ body))) := by
  have length : ({ shell with bodySize := BitVec.ofNat 32 body.length : RpcShell}.bytes ++ body).length =
      sizeofShell + body.length := by
    rw [List.length_append, RpcShell.bytes_length]
  have made := rpcBufferNew_filled (Nat.add_pos_left (by decide : 0 < sizeofShell) body.length)
    (Nat.le_of_eq length.symm)
  rw [List.take_of_length_le (Nat.le_of_eq length)] at made
  simp only [rpcIoMakeShell, packed, bind, Except.bind, made, pure, Except.pure]

end Packing

/-! ### Receiving -/

/-- A connection that has no bytes left in its ring. -/
structure Idle (io : RpcIo) : Prop where
  valid : io.recv.Valid
  clean : io.recv.strayed = false
  empty : io.recv.content = []
  linear : ¬ io.recv.Wrapped
  uncached : io.shellCached = false

/-- A packet that does not reach the end of the ring's storage, unless the storage is replaced for it
and the new size is an `int`. -/
def Room (io : RpcIo) (size : Nat) : Prop :=
  (io.recv.capacity ≤ size ∨ io.recv.tail + size < io.recv.capacity) ∧ size + io.recv.expand < 2 ^ 31

instance (io : RpcIo) (size : Nat) : Decidable (Room io size) := inferInstanceAs (Decidable (_ ∧ _))

theorem Idle.new (fd : Int) : Idle (rpcIoNew fd) where
  valid := rpcRbNew_valid (by decide) (by decide)
  clean := rfl
  empty := rpcRbNew_content _ _
  linear := Nat.lt_irrefl 0
  uncached := rfl

/-- The packet may be of any size that leaves an `int` for the ring's. -/
theorem Room.new (fd : Int) {size : Nat} (capacity : size + rpcIoDefGrowSize < 2 ^ 31) :
    Room (rpcIoNew fd) size := by
  refine ⟨?_, capacity⟩
  rcases Nat.lt_or_ge size rpcIoDefGrowSize with small | large
  · right
    change 0 + size < rpcIoDefGrowSize
    rwa [Nat.zero_add]
  · exact .inl large

/-- The ring of an idle connection with a whole packet in it. -/
theorem Idle.written {io : RpcIo} (idle : Idle io) (packet : Packet) (room : Room io packet.bytes.length) :
    ∃ written, rpcRbWrite io.recv packet.bytes = .ok ⟨written, packet.bytes.length⟩ ∧
      Tracks [packet] [] written ∧ ¬ written.Wrapped ∧
      written.content.length = packet.bytes.length := by
  have tracks : Tracks [packet] (packet.bytes ++ []) io.recv := by
    refine ⟨idle.valid, idle.clean, ?_⟩
    rw [idle.empty, List.nil_append, stream_cons, stream_nil]
  obtain ⟨grows, fits⟩ := rpcRbWrite_tracks tracks idle.linear
  rw [idle.empty, List.length_nil, Nat.zero_add] at grows fits
  obtain ⟨large | behind, capacity⟩ := room
  · obtain ⟨written, done, tracked, flat, length, _⟩ := grows large capacity
    exact ⟨written, done, tracked, flat, length⟩
  · obtain ⟨written, done, tracked, flat, length, _⟩ := fits (by omega) behind
    exact ⟨written, done, tracked, flat, length⟩

/-- A whole packet on an idle connection is one task, and the connection is idle again: a round for
the packet, and a last one that finds the ring empty. -/
theorem Idle.receives {crypt : RpcCrypt} {io : RpcIo} (idle : Idle io) {packet : Packet}
    (room : Room io packet.bytes.length) {body : Option RpcBuffer}
    (received : receivedBody crypt packet.shell packet.body = .ok body) :
    ∃ after task, enqueueChild crypt io packet.bytes = .ok ⟨after, 0, [task]⟩ ∧ Idle after ∧
      task.seen = packet.shell ∧ task.body = body := by
  obtain ⟨written, done, tracks, linear, length⟩ := idle.written packet room
  let child : RpcIo := { io with recv := written }
  have whole := Nat.le_of_eq length.symm
  have first : rpcIoRound crypt child = _ := rpcIoRound_dispatched tracks linear idle.uncached whole
  obtain ⟨after, flat⟩ := taken_tracks tracks linear whole
  have nothing : (taken written packet.bytes.length).content = [] := by
    have ahead := after.ahead
    rwa [List.append_nil, stream_nil] at ahead
  let drained : RpcIo := { child with recv := taken written packet.bytes.length, shellCached := false }
  have last : rpcIoRound crypt drained = .ok (.short drained) :=
    rpcIoRound_short after rfl (by change (taken _ _).content.length < _; rw [nothing]; decide)
  obtain ⟨fuel, enough⟩ : ∃ fuel, rpcRbCanRead written + 1 = fuel + 1 + 1 := by
    have size := packet.bytes_length
    refine ⟨rpcRbCanRead written - 1, ?_⟩
    rw [tracks.canRead, length, size, sizeofShell]
    omega
  have sound : written.sound = .ok written := sound_clean written tracks.clean
  rw [received] at first
  let task : RpcIoTask := ⟨io.fd, .storage written.generation written.head, packet.shell, body⟩
  have dispatched : rpcIoRound crypt child = .ok (.dispatched drained task) := first
  refine ⟨drained, task, ?_, ⟨after.valid, after.clean, nothing, flat, rfl⟩, rfl, rfl⟩
  have started : enqueueChild crypt io packet.bytes = rpcIoRounds crypt (fuel + 1 + 1) child := by
    simp only [enqueueChild, done, bind, Except.bind, sound, enough]
    rfl
  rw [started]
  simp only [rpcIoRounds, dispatched, last, bind, Except.bind, pure, Except.pure]

/-! ### The whole way -/

section Whole
variable {ioList : List RpcIo} {fd : Int}

private theorem rpcIoEnqueue_new (crypt : RpcCrypt) (fresh : rpcIoFind ioList fd = none) {inbuf : Bytes}
    {call : Enqueued} (done : enqueueChild crypt (rpcIoNew fd) inbuf = .ok call) :
    rpcIoEnqueue crypt (rpcIoAdd ioList fd).1 fd inbuf =
      .ok (rpcIoStore call.child (rpcIoAdd ioList fd).1, call) := by
  simp only [rpcIoEnqueue, rpcIoFind_add fresh, done, bind, Except.bind, pure, Except.pure]

/-- What a new connection takes is small, or leaves an `int` for the capacity. -/
theorem rpcIoEnqueue_fits {crypt : RpcCrypt} (fresh : rpcIoFind ioList fd = none) {inbuf : Bytes}
    {after : List RpcIo} {call : Enqueued}
    (enqueued : rpcIoEnqueue crypt (rpcIoAdd ioList fd).1 fd inbuf = .ok (after, call))
    (large : rpcIoDefGrowSize ≤ inbuf.length) : inbuf.length + rpcIoDefGrowSize < 2 ^ 31 := by
  rw [rpcIoEnqueue, rpcIoFind_add fresh] at enqueued
  obtain ⟨_, called, _⟩ := bind_ok enqueued
  obtain ⟨_, write, _⟩ := bind_ok called
  have unread : rpcRbCanRead (rpcIoNew fd).recv = 0 := if_pos rfl
  have fits := RpcRb.GrowthFits.of_write write
  rw [RpcRb.GrowthFits, rpcRbCanWrite, rpcRbCapacityNew, unread, Nat.zero_add] at fits
  exact fits large

/-- A packet that arrives did not make the capacity of the ring overflow. -/
theorem RoundTrips.fits {sender receiver : RpcCrypt} {shell : RpcShell} {buffer : Option RpcBuffer}
    {body : Bytes} (trips : RoundTrips sender receiver ioList fd shell buffer)
    (fresh : rpcIoFind ioList fd = none)
    (packed : shellBody sender (.ofField shell.crypt) buffer = .ok body) :
    sizeofShell + body.length + rpcIoDefGrowSize < 2 ^ 31 := by
  obtain ⟨_, out, after, call, task, packing, enqueued, _⟩ := trips
  have positive : rpcIoDefGrowSize = 4096 := rfl
  rw [rpcIoMakeShell_eq packed] at packing
  obtain ⟨_, packing⟩ := Prod.mk.inj (Except.ok.inj packing)
  obtain rfl := Option.some.inj packing
  have fits := rpcIoEnqueue_fits fresh enqueued
  rw [RpcBuffer.filled_bytes, List.length_append, RpcShell.bytes_length] at fits
  by_contra beyond
  have large : rpcIoDefGrowSize ≤ sizeofShell + body.length := by omega
  exact beyond (fits large)

/-- What is packed from a buffer of `rpc_buffer_new` arrives, exactly where the packet and
what the ring grows by fit into an `int` together. -/
theorem roundTrips_iff (aes : AesCipher) (inverse : aes.Inverse)
    (sent received : Block rpcBufferDefGrowSize) (randSent randReceived : Nat → Nat)
    (fresh : rpcIoFind ioList fd = none) (shell : RpcShell) (magic : shell.magic = rpcMagicNumber)
    (version : shell.version = rpcVersionSign) (known : RpcCryptType.ofField shell.crypt ≠ .unknown)
    (source : Option Bytes) (size : Int) (body : Option RpcBuffer)
    (made : rpcBufferNew source size = .ok body) (filled : ∀ buffer ∈ body, buffer.bytes ≠ []) :
    RoundTrips (rpcCrypt aes sent randSent) (rpcCrypt aes received randReceived) ioList fd shell body ↔
      packetSize (.ofField shell.crypt) body + rpcIoDefGrowSize < 2 ^ 31 := by
  have chunks : ∀ held ∈ body, ∃ bytes, held = .filled bytes ∧ bytes ≠ [] := by
    intro held member
    rw [Option.mem_def] at member
    obtain ⟨bytes, rfl⟩ := rpcBufferNew_some (member ▸ made)
    have present := filled (.filled bytes) member
    rw [RpcBuffer.filled_bytes] at present
    exact ⟨bytes, rfl, present⟩
  obtain ⟨wire, packed, length, arrives⟩ := shellBody_received inverse sent received randSent
    randReceived known chunks
  rw [← length]
  constructor
  · intro trips
    exact trips.fits fresh packed
  · intro fits
    let header : RpcShell := { shell with bodySize := BitVec.ofNat 32 wire.length }
    have total : (header.bytes ++ wire).length = sizeofShell + wire.length := by
      rw [List.length_append, RpcShell.bytes_length]
    have value : (BitVec.ofNat 32 wire.length).toInt = wire.length := by
      rw [BitVec.toInt_eq_toNat_of_lt (by rw [BitVec.toNat_ofNat]; omega), BitVec.toNat_ofNat]
      omega
    obtain ⟨decrypted, undone, same⟩ := arrives (by omega) header rfl
    have small : (header.bytes ++ wire).length + rpcIoDefGrowSize < 2 ^ 31 := by
      rw [total]
      omega
    obtain ⟨after, task, done, _, seen, got⟩ := @Idle.receives _ _ (.new fd)
      ⟨header, wire, magic, version, value⟩ (.new fd small) _ undone
    refine ⟨_, _, rpcIoStore after (rpcIoAdd ioList fd).1, ⟨after, 0, [task]⟩, task,
      rpcIoMakeShell_eq packed, ?_, rfl, ?_⟩
    · rw [RpcBuffer.filled_bytes]
      exact rpcIoEnqueue_new _ fresh done
    · rw [seen, got]
      exact ⟨rfl, rfl, rfl, rfl, same⟩

end Whole

/-- A get request encrypted with TEA, where the AES functions are not called. -/
private def teaShell : RpcShell := { plainShell 1 2 reqTypeGet 0 with crypt := 2 }

theorem roundTrips_tea :
    ∃ buffer, rpcBufferNew (some (ascii "online")) 6 = .ok (some buffer) ∧
      buffer.bytes = ascii "online" ∧
      RoundTrips (rpcCrypt rpcAes (.zero _) fun index => 41 * index)
        (rpcCrypt rpcAes (.zero _) fun _ => 0) [] 7 teaShell (some buffer) := by
  refine ⟨.filled (ascii "online"), rfl, RpcBuffer.filled_bytes _, ?_⟩
  refine (roundTrips_iff rpcAes rpcAes_inverse _ _ _ _ rfl teaShell rfl rfl (by decide)
    (some (ascii "online")) 6 _ rfl ?_).mpr (by decide)
  intro buffer member
  rw [← Option.some.inj member, RpcBuffer.filled_bytes]
  decide

private theorem overflows_of_length {memory : Bytes} (length : memory.length = 2147479532) :
    ∃ buffer, rpcBufferNew (some memory) 2147479532 = .ok (some buffer) ∧
      buffer.bytes ≠ [] ∧ buffer.chunkSize < 2 ^ 31 ∧
      ¬ RoundTrips (rpcCrypt rpcAes (.zero _) fun _ => 0) (rpcCrypt rpcAes (.zero _) fun _ => 0)
        [] 7 (plainShell 1 2 reqTypeGet 0) (some buffer) := by
  have present : memory ≠ [] := by
    intro nothing
    rw [nothing] at length
    cases length
  have made := rpcBufferNew_filled (Nat.zero_lt_succ 2147479531) (Nat.le_of_eq length.symm)
  rw [List.take_of_length_le (Nat.le_of_eq length)] at made
  have packed : shellBody (rpcCrypt rpcAes (.zero _) fun _ => 0) .none (some (.filled memory)) =
      .ok memory := by
    simp only [shellBody, rpcBufferClone_filled present, bind, Except.bind, rpcBufferEncrypt, pure,
      Except.pure, RpcBuffer.filled_bytes]
  refine ⟨.filled memory, made, by rwa [RpcBuffer.filled_bytes], ?_, fun trips => ?_⟩
  · change memory.length + 1 + rpcBufferDefGrowSize < 2 ^ 31
    rw [length]
    decide
  · have fits := trips.fits rfl packed
    rw [length] at fits
    exact absurd fits (by decide)

/-- A body that a buffer can hold, and whose packet makes `capacity_new` overflow. -/
theorem rpcRbWrite_overflows :
    ∃ buffer, rpcBufferNew (some (List.replicate 2147479532 0)) 2147479532 = .ok (some buffer) ∧
      buffer.bytes ≠ [] ∧ buffer.chunkSize < 2 ^ 31 ∧
      ¬ RoundTrips (rpcCrypt rpcAes (.zero _) fun _ => 0) (rpcCrypt rpcAes (.zero _) fun _ => 0)
        [] 7 (plainShell 1 2 reqTypeGet 0) (some buffer) :=
  overflows_of_length List.length_replicate

end Livezure.Rpc
