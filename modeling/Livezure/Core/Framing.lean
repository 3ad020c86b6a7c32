import Livezure.Core.Memory

/-! A stream of frames that arrives in pieces: which frames are complete after the
first `count` elements, and how many elements of the next frame are there. -/
namespace Livezure.Core

section Framing
variable {α β : Type} (frame : α → List β)

def stream (items : List α) : List β := items.flatMap frame

/-- The frames that end within the first `count` elements of the stream. -/
def completed : List α → Nat → List α
  | [], _ => []
  | item :: rest, count =>
    if (frame item).length ≤ count then item :: completed rest (count - (frame item).length) else []

/-- The frames that do not end there. -/
def remaining : List α → Nat → List α
  | [], _ => []
  | item :: rest, count =>
    if (frame item).length ≤ count then remaining rest (count - (frame item).length)
    else item :: rest

/-- How many of the first `count` elements stand behind the last complete frame. -/
def pending : List α → Nat → Nat
  | [], count => count
  | item :: rest, count =>
    if (frame item).length ≤ count then pending rest (count - (frame item).length) else count

/-- For each piece of the given length, the frames whose last element it brings;
`start` elements came before. -/
def arrivals (items : List α) (start : Nat) : List Nat → List (List α)
  | [] => []
  | length :: lengths =>
    (completed frame items (start + length)).drop (completed frame items start).length ::
      arrivals items (start + length) lengths

variable {frame}

@[simp] theorem stream_nil : stream frame [] = [] := rfl

@[simp] theorem stream_cons (item : α) (rest : List α) :
    stream frame (item :: rest) = frame item ++ stream frame rest := by
  simp [stream]

theorem stream_append (items more : List α) :
    stream frame (items ++ more) = stream frame items ++ stream frame more := List.flatMap_append

theorem completed_add (items : List α) (start more : Nat) :
    completed frame items (start + more) = completed frame items start ++
      completed frame (remaining frame items start) (pending frame items start + more) := by
  induction items generalizing start with
  | nil => simp [completed, remaining]
  | cons item rest ih =>
    by_cases whole : (frame item).length ≤ start
    · have later : (frame item).length ≤ start + more := by omega
      have apart : start + more - (frame item).length = start - (frame item).length + more := by omega
      simp only [completed, remaining, pending, if_pos whole, if_pos later, apart, ih,
        List.cons_append]
    · simp only [completed, remaining, pending, if_neg whole, List.nil_append]

theorem remaining_add (items : List α) (start more : Nat) :
    remaining frame items (start + more) =
      remaining frame (remaining frame items start) (pending frame items start + more) := by
  induction items generalizing start with
  | nil => simp [remaining]
  | cons item rest ih =>
    by_cases whole : (frame item).length ≤ start
    · have later : (frame item).length ≤ start + more := by omega
      have apart : start + more - (frame item).length = start - (frame item).length + more := by omega
      simp only [remaining, pending, if_pos whole, if_pos later, apart, ih]
    · simp only [remaining, pending, if_neg whole]

theorem pending_add (items : List α) (start more : Nat) :
    pending frame items (start + more) =
      pending frame (remaining frame items start) (pending frame items start + more) := by
  induction items generalizing start with
  | nil => simp [remaining, pending]
  | cons item rest ih =>
    by_cases whole : (frame item).length ≤ start
    · have later : (frame item).length ≤ start + more := by omega
      have apart : start + more - (frame item).length = start - (frame item).length + more := by omega
      simp only [remaining, pending, if_pos whole, if_pos later, apart, ih]
    · simp only [remaining, pending, if_neg whole]

theorem arrivals_cons (items : List α) (start length : Nat) (lengths : List Nat) :
    arrivals frame items start (length :: lengths) =
      completed frame (remaining frame items start) (pending frame items start + length) ::
        arrivals frame items (start + length) lengths := by
  rw [arrivals, completed_add, List.drop_left]

theorem completed_append_remaining (items : List α) (count : Nat) :
    completed frame items count ++ remaining frame items count = items := by
  induction items generalizing count with
  | nil => rfl
  | cons item rest ih =>
    by_cases whole : (frame item).length ≤ count
    · simp only [completed, remaining, if_pos whole, List.cons_append, ih]
    · simp only [completed, remaining, if_neg whole, List.nil_append]

/-- The next frame is not complete. -/
theorem pending_lt {items : List α} {count : Nat} (next : remaining frame items count = item :: rest) :
    pending frame items count < (frame item).length := by
  induction items generalizing count with
  | nil => cases next
  | cons first others ih =>
    by_cases whole : (frame first).length ≤ count
    · rw [remaining, if_pos whole] at next
      rw [pending, if_pos whole]
      exact ih next
    · rw [remaining, if_neg whole] at next
      rw [pending, if_neg whole, ← (List.cons.inj next).1]
      exact Nat.not_le.mp whole

/-- What is pending and what is still to come make up the remaining frames. -/
theorem pending_add_length {items : List α} (all : start + more = (stream frame items).length) :
    pending frame items start + more = (stream frame (remaining frame items start)).length := by
  induction items generalizing start with
  | nil => exact all
  | cons item rest ih =>
    by_cases whole : (frame item).length ≤ start
    · rw [stream_cons, List.length_append] at all
      rw [pending, remaining, if_pos whole, if_pos whole]
      exact ih (by omega)
    · rw [pending, remaining, if_neg whole, if_neg whole]
      exact all

/-- Once the whole stream is there, no frame remains. -/
theorem remaining_all {items : List α} (all : start = (stream frame items).length) :
    remaining frame items start = [] := by
  have length : pending frame items start + 0 = _ := pending_add_length all
  cases next : remaining frame items start with
  | nil => rfl
  | cons item rest =>
    have short := pending_lt next
    rw [next, stream_cons, List.length_append] at length
    omega

end Framing
end Livezure.Core
