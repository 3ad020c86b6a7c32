import Livezure.Rpc.Io
import Livezure.Rpc.RingInvariant

/-! The receive loop over a ring in the linear layout, for any bytes. -/
namespace Livezure.Rpc
open Livezure.Core

/-- The ring after a read in the linear layout. -/
def taken (rb : RpcRb) (count : Nat) : RpcRb := { rb with head := rb.head + count }

@[simp] theorem taken_taken (rb : RpcRb) (first second : Nat) :
    taken (taken rb first) second = taken rb (first + second) := by
  simp [taken, Nat.add_assoc]

theorem sound_ok {rb : RpcRb} (sound : rb.sound = .ok result) :
    result = rb ∧ rb.strayed = false := by
  unfold RpcRb.sound at sound
  split at sound
  · cases sound
  · rename_i clean
    exact ⟨(Except.ok.inj sound).symm, by simpa using clean⟩

theorem sound_clean (rb : RpcRb) (clean : rb.strayed = false) : rb.sound = .ok rb := by
  simp [RpcRb.sound, clean]

theorem readSound_ok {rb : RpcRb} (valid : rb.Valid) (within : count ≤ rpcRbCanRead rb)
    (read : readSound rb count = .ok result) :
    ReadsQueue rb count result ∧ result.rb.strayed = false := by
  obtain ⟨inner, done, read⟩ := bind_ok read
  obtain ⟨_, sound, read⟩ := bind_ok read
  obtain ⟨rfl, clean⟩ := sound_ok sound
  have same : inner = result := Except.ok.inj read
  subst same
  exact ⟨rpcRbRead_queue valid within done clean, clean⟩

private theorem readSound_linear {rb : RpcRb} (clean : rb.strayed = false) (linear : rb.head < rb.tail)
    (within : count ≤ rpcRbCanRead rb) :
    readSound rb count =
      .ok ⟨taken rb count, .storage rb.generation rb.head, count⟩ := by
  rw [readSound, rpcRbRead_linear linear within]
  simp only [bind, Except.bind, sound_clean { rb with head := rb.head + count } clean,
    pure, Except.pure, taken]

/-- In the linear layout the unread bytes are a part of the storage. -/
theorem content_at {rb : RpcRb} (linear : ¬ rb.Wrapped) (within : count ≤ rb.content.length) :
    (rb.buffer.drop rb.head).take count = rb.content.take count ∧
      count ≤ (rb.buffer.drop rb.head).length := by
  have order : rb.head ≤ rb.tail := Nat.not_lt.mp linear
  rw [RpcRb.content_linear order] at within ⊢
  rw [List.length_take] at within
  refine ⟨?_, by omega⟩
  rw [List.take_take]
  congr 1
  omega

private theorem head_lt_tail {rb : RpcRb} (linear : ¬ rb.Wrapped)
    (unread : 0 < rb.content.length) : rb.head < rb.tail := by
  have order : rb.head ≤ rb.tail := Nat.not_lt.mp linear
  rw [RpcRb.content_linear order, List.length_take] at unread
  omega

/-- A header in the storage reads the same after any number of bytes was taken. -/
theorem loadShell_taken {rb : RpcRb} (linear : ¬ rb.Wrapped)
    (enough : sizeofShell ≤ rb.content.length) (count : Nat) :
    loadShell (taken rb count) (.storage rb.generation rb.head) =
      .ok (RpcShell.ofBytes (rb.content.take sizeofShell)) := by
  obtain ⟨same, room⟩ := content_at linear enough
  rw [List.length_drop] at room
  have positive : 0 < sizeofShell := by decide
  have loaded := RpcRb.load_storage (taken rb count) rb.head sizeofShell (by simp only [taken]; omega)
  rw [loadShell, show rb.generation = (taken rb count).generation from rfl, loaded]
  simp only [taken, same]
  rfl

theorem taken_queue {rb : RpcRb} (valid : rb.Valid) (linear : ¬ rb.Wrapped)
    (within : count ≤ rb.content.length) :
    (taken rb count).Valid ∧ ¬ (taken rb count).Wrapped ∧
      (taken rb count).content = rb.content.drop count := by
  have order : rb.head ≤ rb.tail := Nat.not_lt.mp linear
  have tailLt := valid.tail_lt
  rw [RpcRb.content_linear order] at within ⊢
  rw [List.length_take] at within
  have inside : rb.head + count ≤ rb.tail := by omega
  refine ⟨⟨valid.storage, Nat.lt_of_le_of_lt inside tailLt, tailLt, valid.expand_pos⟩,
    Nat.not_lt.mpr inside, ?_⟩
  rw [RpcRb.content_linear (show (taken rb count).head ≤ (taken rb count).tail from inside),
    List.drop_take]
  simp only [taken, List.drop_drop]
  congr 1
  omega

/-- The body a task gets when the header and the body are read back unchanged. -/
def receivedBody (crypt : RpcCrypt) (shell : RpcShell) (body : Bytes) :
    Except Fault (Option RpcBuffer) :=
  if body = [] then .ok none
  else rpcBufferDecrypt crypt (some (.filled body)) (.ofField shell.crypt)

/-- What a header at the front of the queue makes of a round. -/
def headerOutcome (child : RpcIo) (shell : RpcShell) : HeaderRound :=
  let after := { child with recv := taken child.recv sizeofShell }
  if shell.magic ≠ rpcMagicNumber then .refused after
  else if shell.version ≠ rpcVersionSign then .refused after
  else if (child.recv.content.length : Int) < sizeofShell + shell.bodySize.toInt then
    .cached { after with shell, shellCached := true }
  else .complete after (.storage child.recv.generation child.recv.head) shell.bodySize

theorem headerOutcome_cases (child : RpcIo) (shell : RpcShell) :
    (∃ after, headerOutcome child shell = .refused after ∧
      after.recv = taken child.recv sizeofShell) ∨
    (∃ after, headerOutcome child shell = .cached after ∧
      after.recv = taken child.recv sizeofShell) ∨
    (headerOutcome child shell = .complete { child with recv := taken child.recv sizeofShell }
        (.storage child.recv.generation child.recv.head) shell.bodySize ∧
      sizeofShell + shell.bodySize.toInt ≤ child.recv.content.length) := by
  unfold headerOutcome
  dsimp only
  split
  · exact Or.inl ⟨_, rfl, rfl⟩
  · split
    · exact Or.inl ⟨_, rfl, rfl⟩
    · split
      · exact Or.inr (Or.inl ⟨_, rfl, rfl⟩)
      · rename_i present
        exact Or.inr (Or.inr ⟨rfl, Int.not_lt.mp present⟩)

section Child
variable {child : RpcIo}

theorem rpcIoHeader_short (valid : child.recv.Valid) (uncached : child.shellCached = false)
    (few : child.recv.content.length < sizeofShell) : rpcIoHeader child = .ok (.short child) := by
  rw [rpcIoHeader, if_pos ⟨uncached, by rw [← valid.content_length]; exact few⟩]

theorem rpcIoHeader_linear (valid : child.recv.Valid) (clean : child.recv.strayed = false)
    (linear : ¬ child.recv.Wrapped) (uncached : child.shellCached = false)
    (enough : sizeofShell ≤ child.recv.content.length) :
    rpcIoHeader child =
      .ok (headerOutcome child (.ofBytes (child.recv.content.take sizeofShell))) := by
  have length := valid.content_length
  have start : ¬ (child.shellCached = false ∧ rpcRbCanRead child.recv < sizeofShell) := by
    rw [← length]
    exact fun both => Nat.not_lt.mpr enough both.2
  have settled : ¬ child.shellCached = true := by simp [uncached]
  have order := head_lt_tail linear (Nat.lt_of_lt_of_le (by decide) enough)
  have read := readSound_linear clean order (length ▸ enough)
  obtain ⟨after, _, content⟩ := taken_queue valid linear enough
  have left : rpcRbCanRead (taken child.recv sizeofShell) =
      child.recv.content.length - sizeofShell := by
    rw [← after.content_length, content, List.length_drop]
  have missing : ((child.recv.content.length - sizeofShell : Nat) : Int) <
      (RpcShell.ofBytes (child.recv.content.take sizeofShell)).bodySize.toInt ↔
      (child.recv.content.length : Int) < sizeofShell +
        (RpcShell.ofBytes (child.recv.content.take sizeofShell)).bodySize.toInt := by
    omega
  rw [rpcIoHeader, if_neg start, if_neg settled, read]
  simp only [bind, Except.bind, loadShell_taken linear enough, left, missing, headerOutcome]
  split
  · rfl
  · split
    · rfl
    · split <;> rfl

private theorem readBody_linear {shell : RpcShell} {rb : RpcRb} (clean : rb.strayed = false)
    (valid : rb.Valid) (linear : ¬ rb.Wrapped) (sized : shell.bodySize.toInt = (size : Nat))
    (within : size ≤ rb.content.length)
    (loads : ∀ count, loadShell (taken rb count) place = .ok shell) :
    readBody crypt rb place shell.bodySize = do
      let body ← receivedBody crypt shell (rb.content.take size)
      return (taken rb size, body) := by
  by_cases empty : shell.bodySize = 0
  · have zero : size = 0 := by
      rw [empty] at sized
      simpa using sized.symm
    subst zero
    rw [readBody, if_pos empty, receivedBody, if_pos (List.take_zero)]
    rfl
  · have positive : 0 < size := by
      rcases Nat.eq_zero_or_pos size with zero | positive
      · refine absurd (BitVec.eq_of_toInt_eq ?_) empty
        simpa [zero] using sized
      · exact positive
    have order := head_lt_tail linear (by omega)
    obtain ⟨same, room⟩ := content_at linear within
    have read := readSound_linear clean order (valid.content_length ▸ within)
    have memory : (taken rb size).memory (.storage rb.generation rb.head) =
        .ok (rb.buffer.drop rb.head) := by
      simp [RpcRb.memory, taken]
    have filled := rpcBufferNew_filled positive room
    have some : rb.content.take size ≠ [] := by
      intro nothing
      have length := congrArg List.length nothing
      rw [List.length_take, List.length_nil] at length
      omega
    rw [same] at filled
    rw [readBody, if_neg empty, receivedBody, if_neg some, sized, read]
    simp only [bind, Except.bind, memory, loads size, sized, filled]

theorem rpcIoDispatch_linear {shell : RpcShell} (valid : child.recv.Valid)
    (clean : child.recv.strayed = false) (linear : ¬ child.recv.Wrapped)
    (sized : shell.bodySize.toInt = (size : Nat)) (within : size ≤ child.recv.content.length)
    (loads : ∀ count, loadShell (taken child.recv count) place = .ok shell) :
    rpcIoDispatch crypt child place shell.bodySize = do
      let body ← receivedBody crypt shell (child.recv.content.take size)
      return ({ child with recv := taken child.recv size, shellCached := false },
        { fd := child.fd, shell := place, seen := shell, body }) := by
  rw [rpcIoDispatch, readBody_linear clean valid linear sized within loads]
  cases receivedBody crypt shell (child.recv.content.take size) with
  | error fault => rfl
  | ok body => simp only [bind, Except.bind, pure, Except.pure, loads size]

end Child
end Livezure.Rpc
