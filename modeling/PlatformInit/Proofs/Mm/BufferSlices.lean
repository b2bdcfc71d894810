import PlatformInit.Proofs.Memory
import PlatformInit.Proofs.Mm.Requests
import PlatformInit.Proofs.Word.Sums

/-!
A communicate buffer by the slices that are taken of it.

`Window` is a buffer apart from memory. Its operations take every slice with the check of its bounds and of
its length that stops the machine, in the order in which the slices are written. `Window.perform_eq` says
that a buffer whose recipient is linked to its length does the same without any check.
-/
set_option autoImplicit false
namespace PlatformInit

/-- An operation on a communicate buffer. A write to the message area, at whatever place, is a `fill` with
the bytes that the area holds after it. -/
inductive BufferOp where
  | reset
  | recipient (g : Guid)
  | message (data : Bytes)
  | fill (data : Bytes)

namespace CommBuffer

def attempt (op : BufferOp) (s : CommBuffer × Memory) : Except CommBufferError (CommBuffer × Memory) :=
  match op with
  | .reset => .ok (s.1.reset s.2)
  | .recipient g => (s.1.setRecipient g).map (·, s.2)
  | .message data => s.1.setMessage s.2 data
  | .fill data => .ok (s.1, s.1.writeMessage s.2 data)

/-- What ties the recipient and the message to the length of the buffer. -/
structure Linked (b : CommBuffer) : Prop where
  header : b.recipient.isSome = true → CommHeader.size ≤ b.length
  request : CommHeader.size ≤ b.length → b.requestSize ≤ b.length

theorem bytes_write (b : CommBuffer) (m : Memory) {i : Nat} {part : Bytes} (h : i + part.length ≤ b.length) :
    b.bytes (m.write (b.start + i) part) = (b.bytes m).overwrite i part :=
  Memory.read_write_overwrite m b.start h

end CommBuffer

/-- The bytes of a buffer, and what is known about its request. -/
structure Window where
  bytes : Bytes
  messageLength : Nat
  recipient : Option Guid
  deriving DecidableEq

namespace Window

/-- Copies to the bytes from `start` to `stop`. The machine stops where there are no such bytes, or not as
many as are copied. -/
def copy (start stop : Nat) (part : Bytes) : Step Window CommBufferError Unit := fun w =>
  if start ≤ stop ∧ stop ≤ w.bytes.length ∧ start + part.length = stop then
    .ok () { w with bytes := w.bytes.overwrite start part }
  else .error (.halt (.fatal "slice")) w

def copyRequest (header data : Bytes) : Step Window CommBufferError Unit := do
  copy 0 CommHeader.size header
  let stop ← Step.ofHalting (fit64 (CommHeader.size + data.length))
  copy CommHeader.size stop data

def slice? (w : Window) (start stop : Nat) : Option Bytes :=
  if start ≤ stop then w.bytes.slice? start (stop - start) else none

def perform : BufferOp → Step Window CommBufferError Unit
  | .reset => modify fun w => ⟨List.replicate w.bytes.length 0, 0, none⟩
  | .recipient g => do
    if (← get).bytes.length < CommHeader.size then Step.fail .tooSmallForHeader
    else modify fun w => { w with recipient := some g }
  | .message data => do
    let w ← get
    if w.bytes.length - CommHeader.size < data.length then Step.fail .tooSmallForMessage
    else
      match w.recipient with
      | none => Step.fail .invalidRecipient
      | some g =>
        set { w with messageLength := data.length }
        copyRequest (CommHeader.mk g (.ofNat data.length)).toBytes data
  | .fill data => do
    let length := (← get).bytes.length
    let start := min CommHeader.size length
    let part := data.take (length - start)
    copy start (start + part.length) part

/-- The message area, as far as it has `length` bytes. The end of the area is a sum that does not pass the
last word. -/
def message? (w : Window) (length : UInt64) : Option Bytes :=
  let start := min CommHeader.size w.bytes.length
  let stop := min (min (start + length.toNat) (UInt64.size - 1)) w.bytes.length
  w.slice? start stop

def of (s : CommBuffer × Memory) : Window := ⟨s.1.bytes s.2, s.1.messageLength, s.1.recipient⟩

section
variable {s : CommBuffer × Memory}

theorem length_of (s : CommBuffer × Memory) : (of s).bytes.length = s.1.length := Memory.length_read ..

theorem copy_eq {w : Window} {start stop : Nat} {part : Bytes} (hstop : start + part.length = stop)
    (hfits : stop ≤ w.bytes.length) :
    copy start stop part w = .ok () { w with bytes := w.bytes.overwrite start part } :=
  if_pos ⟨by omega, hfits, hstop⟩

theorem copyRequest_eq {w : Window} {header data : Bytes} (hheader : header.length = CommHeader.size)
    (hfits : CommHeader.size + data.length ≤ w.bytes.length) (hlength : w.bytes.length < UInt64.size) :
    copyRequest header data w = .ok () { w with bytes := w.bytes.overwrite 0 (header ++ data) } := by
  have hfirst : 0 + header.length ≤ w.bytes.length := by
    omega
  have hboth : 0 + (header ++ data).length ≤ w.bytes.length := by
    rw [List.length_append]
    omega
  have hbytes : (w.bytes.overwrite 0 header).overwrite CommHeader.size data =
      w.bytes.overwrite 0 (header ++ data) := by
    rw [← Bytes.overwrite_append hboth, Nat.zero_add, hheader]
  rw [copyRequest, Step.bind_of_ok (copy_eq (by omega) (by omega)),
    Step.bind_of_ok (Step.ofHalting_eq_ok.mpr ⟨fit64_of_lt (by omega), rfl⟩),
    copy_eq rfl (by rw [Bytes.length_overwrite hfirst]; exact hfits), hbytes]

theorem perform_reset_eq (s : CommBuffer × Memory) :
    perform .reset (of s) = .ok () (of (s.1.reset s.2)) := by
  have hbytes : (s.2.write s.1.start (List.replicate s.1.length 0)).read s.1.start s.1.length =
      List.replicate s.1.length 0 := by
    have hread := s.2.read_write s.1.start (List.replicate s.1.length 0)
    rwa [List.length_replicate] at hread
  change EStateM.Result.ok () (Window.mk (List.replicate (of s).bytes.length 0) 0 none) = _
  rw [length_of, ← hbytes]
  rfl

theorem perform_recipient_eq (s : CommBuffer × Memory) (g : Guid) : perform (.recipient g) (of s) =
    match CommBuffer.attempt (.recipient g) s with
    | .ok t => .ok () (of t)
    | .error e => .error (.error e) (of s) := by
  have hlength := length_of s
  rw [perform, Step.bind_of_ok (Step.get_eq_ok.mpr ⟨rfl, rfl⟩), CommBuffer.attempt,
    CommBuffer.setRecipient, hlength]
  by_cases hshort : s.1.length < CommHeader.size
  · rw [if_pos hshort, if_pos hshort]
    rfl
  · rw [if_neg hshort, if_neg hshort]
    rfl

theorem perform_message_eq (hlinked : s.1.Linked) (hlength : s.1.length < UInt64.size) (data : Bytes) :
    perform (.message data) (of s) =
      match CommBuffer.attempt (.message data) s with
      | .ok t => .ok () (of t)
      | .error e => .error (.error e) (of s) := by
  rw [perform, Step.bind_of_ok (Step.get_eq_ok.mpr ⟨rfl, rfl⟩), CommBuffer.attempt, CommBuffer.setMessage,
    length_of, CommBuffer.capacity]
  by_cases hlong : s.1.length - CommHeader.size < data.length
  · rw [if_pos hlong, if_pos hlong]
    rfl
  rw [if_neg hlong, if_neg hlong]
  change (match s.1.recipient with | none => _ | some g => _ : Step Window CommBufferError Unit) _ = _
  cases hrecipient : s.1.recipient with
  | none => rfl
  | some g =>
    have hroom := hlinked.header (Option.isSome_iff_exists.mpr ⟨g, hrecipient⟩)
    have hfits : CommHeader.size + data.length ≤ s.1.length := by
      omega
    have hheader := CommHeader.length_toBytes ⟨g, .ofNat data.length⟩
    have hwhole : 0 + ((CommHeader.mk g (.ofNat data.length)).toBytes ++ data).length ≤ s.1.length := by
      rw [List.length_append]
      omega
    have hbytes := s.1.bytes_write s.2 hwhole
    refine (Step.bind_of_ok rfl).trans ((copyRequest_eq hheader ?_ ?_).trans ?_)
    · exact (length_of s).symm ▸ hfits
    · exact (length_of s).symm ▸ hlength
    · change EStateM.Result.ok () (Window.mk ((s.1.bytes s.2).overwrite 0 _) _ s.1.recipient) = _
      rw [← hbytes, hrecipient]
      rfl

theorem perform_fill_eq (s : CommBuffer × Memory) (data : Bytes) :
    perform (.fill data) (of s) = .ok () (of (s.1, s.1.writeMessage s.2 data)) := by
  have hroom : s.1.length - min CommHeader.size s.1.length = s.1.capacity := by
    rw [CommBuffer.capacity]
    omega
  have hfits : s.1.messageOffset + (data.take s.1.capacity).length ≤ s.1.length := by
    rw [List.length_take, CommBuffer.messageOffset, CommBuffer.capacity]
    omega
  have hbytes := s.1.bytes_write s.2 hfits
  rw [perform, Step.bind_of_ok (Step.get_eq_ok.mpr ⟨rfl, rfl⟩), length_of, hroom]
  refine (copy_eq rfl (by rw [length_of]; exact hfits)).trans ?_
  change EStateM.Result.ok () (Window.mk ((s.1.bytes s.2).overwrite s.1.messageOffset _) _ _) = _
  rw [← hbytes]
  rfl

/-- On a linked buffer no slice stops the machine, and the bytes and the record of the request end up as
those of the buffer. A refusal leaves them alone. -/
theorem perform_eq (hlinked : s.1.Linked) (hlength : s.1.length < UInt64.size) (op : BufferOp) :
    perform op (of s) =
      match CommBuffer.attempt op s with
      | .ok t => .ok () (of t)
      | .error e => .error (.error e) (of s) := by
  cases op with
  | reset => exact perform_reset_eq s
  | recipient g => exact perform_recipient_eq s g
  | message data => exact perform_message_eq hlinked hlength data
  | fill data => exact perform_fill_eq s data

theorem message?_eq (hlength : s.1.length < UInt64.size) (n : UInt64) :
    (of s).message? n = some (s.1.message s.2 n.toNat) := by
  have hbytes := length_of s
  rw [message?, slice?, hbytes, CommBuffer.message]
  change (if _ then Bytes.slice? (s.1.bytes s.2) _ _ else none) = _
  rw [if_pos (by omega), Bytes.slice?_eq, if_pos (by rw [CommBuffer.length_bytes]; omega)]
  have hdrop : (s.1.bytes s.2).drop (min CommHeader.size s.1.length) =
      (s.1.bytes s.2).drop CommHeader.size := by
    rw [List.drop_eq_drop_iff, CommBuffer.length_bytes]
    omega
  rw [hdrop, Option.some.injEq, List.take_eq_take_iff, List.length_drop, CommBuffer.length_bytes]
  omega

end
end Window
end PlatformInit
