import RemoteDeviceConsole.Protocol.Text
import Mathlib.Data.Finset.Sort

/-!
# What the kernel answers

The programs of the repository meet the operating system in `accept`, `recv`,
`send`, `epoll_wait` and the clock.  Their answers are inputs of the models; this
file has their types.

A non-blocking `send` takes as many bytes as the socket has room for, so an
answer is a room or an error, and every answer is possible for every text.
`Sent` records one call.  Its bytes are what the peer will get to read.

A hash set is a `Finset` together with, at every loop over it, some order of its
elements: `IterationOrder` is such a choice, and nothing more is known of it.
-/

namespace RemoteDeviceConsole

/-- A file descriptor that the kernel handed out. -/
abbrev Fd := ℕ

/-- The values of `errno` that the sources name or that peers can provoke. -/
inductive Errno where
  | EAGAIN
  | EWOULDBLOCK
  | EINTR
  | EPIPE
  | ECONNRESET
  | ECONNABORTED
  | ETIMEDOUT
  | EINPROGRESS
  | other (code : ℕ)
  deriving DecidableEq

/-- `errno == EAGAIN || errno == EWOULDBLOCK`. -/
def Errno.wouldBlock : Errno → Bool
  | .EAGAIN => true
  | .EWOULDBLOCK => true
  | _ => false

/-- `std::runtime_error`, with the text of `std::strerror(errno)` or its own. -/
inductive RuntimeError where
  | strerror (errno : Errno)
  | what (text : Bytes)
  deriving DecidableEq

/-! ## Sending -/

/-- The answer to one `send`: the room the socket had, or an error. -/
inductive SendResult where
  | room (n : ℕ)
  | failed (errno : Errno)
  deriving DecidableEq

/-- `sent >= 0`. -/
def SendResult.nonNegative : SendResult → Bool
  | .room _ => true
  | .failed _ => false

/-- `sent < 0 && errno != EAGAIN && errno != EWOULDBLOCK`. -/
def SendResult.hardError : SendResult → Bool
  | .room _ => false
  | .failed errno => !errno.wouldBlock

/-- One call of `send`: the socket, the whole text offered and the answer. -/
structure Sent where
  fd : Fd
  text : Bytes
  result : SendResult
  deriving DecidableEq

namespace Sent

/-- The bytes that went out. -/
def bytes (s : Sent) : Bytes :=
  match s.result with
  | .room n => s.text.take n
  | .failed _ => []

/-- The call took its whole text. -/
def Whole (s : Sent) : Prop := ∃ n, s.result = .room n ∧ s.text.length ≤ n

/-- The call returned a count below the length of its text. -/
def Short (s : Sent) : Prop := ∃ n, s.result = .room n ∧ n < s.text.length

instance (s : Sent) : Decidable s.Whole :=
  match h : s.result with
  | .room n => decidable_of_iff (s.text.length ≤ n) (by simp [Whole, h])
  | .failed _ => isFalse (by simp [Whole, h])

instance (s : Sent) : Decidable s.Short :=
  match h : s.result with
  | .room n => decidable_of_iff (n < s.text.length) (by simp [Short, h])
  | .failed _ => isFalse (by simp [Short, h])

theorem bytes_isPrefix (s : Sent) : s.bytes <+: s.text := by
  unfold bytes
  split
  · exact List.take_prefix _ _
  · exact List.nil_prefix

theorem bytes_of_whole {s : Sent} (h : s.Whole) : s.bytes = s.text := by
  obtain ⟨n, hr, hn⟩ := h
  rw [bytes, hr]
  exact List.take_of_length_le hn

theorem nonNegative_iff (s : Sent) : s.result.nonNegative = true ↔ s.Whole ∨ s.Short := by
  cases hr : s.result with
  | room n =>
    simp only [SendResult.nonNegative, Whole, Short, hr, SendResult.room.injEq, true_iff]
    rcases Nat.lt_or_ge n s.text.length with h | h
    · exact Or.inr ⟨n, rfl, h⟩
    · exact Or.inl ⟨n, rfl, h⟩
  | failed e => simp [SendResult.nonNegative, Whole, Short, hr]

theorem not_whole_of_short {s : Sent} (h : s.Short) : ¬ s.Whole := by
  rintro ⟨n, hn, hle⟩
  obtain ⟨m, hm, hlt⟩ := h
  have : n = m := by rw [hn] at hm; exact SendResult.room.inj hm
  omega

end Sent

/-! ## Receiving and accepting -/

/-- How a series of `recv` calls ends: the peer closed the connection, or an error,
`EAGAIN` being the usual one. -/
inductive RecvEnd where
  | closed
  | failed (errno : Errno)
  deriving DecidableEq

/-- One successful `accept` with what the two calls on the new descriptor report. -/
structure NewClient where
  fd : Fd
  setNonBlocking : Option Errno
  addEpollFd : Option Errno
  deriving DecidableEq

/-! ## Loops over hash sets -/

/-- An order in which a loop visits the elements of a set. -/
structure IterationOrder (α : Type) where
  toList : Finset α → List α
  coe_toList : ∀ s, (toList s : Multiset α) = s.val

namespace IterationOrder

variable {α : Type} (order : IterationOrder α) (s : Finset α)

@[simp] theorem mem_toList {a : α} : a ∈ order.toList s ↔ a ∈ s := by
  rw [← Multiset.mem_coe, order.coe_toList, Finset.mem_val]

theorem nodup_toList : (order.toList s).Nodup := by
  rw [← Multiset.coe_nodup, order.coe_toList]
  exact s.nodup

/-- The increasing order of descriptors. -/
def increasing : IterationOrder Fd where
  toList s := s.sort (· ≤ ·)
  coe_toList s := Finset.sort_eq s (· ≤ ·)

end IterationOrder

/-- The kernel's answers while one line is handled: the clock, the `send` of the
ACK, the `send` to each viewer, and the order of the loop over the viewers. -/
structure LineEnv where
  nowMs : UInt64
  ack : SendResult
  viewer : Fd → SendResult
  order : IterationOrder Fd

/-- The kernel's answers during one `print_metrics_if_due`. -/
structure ReportEnv where
  nowMs : UInt64
  viewer : Fd → SendResult
  order : IterationOrder Fd

/-- Sockets with room for everything, at a given time. -/
def LineEnv.roomy (nowMs : UInt64) : LineEnv :=
  ⟨nowMs, .room 1000, fun _ => .room 1000, .increasing⟩

def ReportEnv.roomy (nowMs : UInt64) : ReportEnv := ⟨nowMs, fun _ => .room 1000, .increasing⟩

end RemoteDeviceConsole
