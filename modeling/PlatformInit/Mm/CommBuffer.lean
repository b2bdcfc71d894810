import PlatformInit.Guid
import PlatformInit.Memory
import PlatformInit.Word.Hexadecimal

/-!
Communicate buffers: windows of shared memory in which requests to handlers in management mode (MM)
and their replies are carried.

A request is a header, which names the handler and the length of the message, and the message behind
it.
-/
set_option autoImplicit false
namespace PlatformInit

structure CommHeader where
  recipient : Guid
  messageLength : UInt64
  deriving DecidableEq

namespace CommHeader

def size : Nat := 24

def toBytes (h : CommHeader) : Bytes := h.recipient.toBytes ++ le64 h.messageLength

def read? (bytes : Bytes) : Option CommHeader := do
  return ⟨← Guid.read? bytes 0, ← bytes.u64? 16⟩

end CommHeader

inductive CommBufferError where
  | tooSmallForHeader
  | tooSmallForMessage
  | invalidRecipient
  deriving DecidableEq

/-- A window of memory and the request that is being put into it. -/
structure CommBuffer where
  address : UInt64
  id : UInt8
  length : Nat
  messageLength : Nat
  recipient : Option Guid
  deriving DecidableEq

namespace CommBuffer

def new (address : UInt64) (id : UInt8) (length : Nat) : CommBuffer := ⟨address, id, length, 0, none⟩

def start (b : CommBuffer) : Nat := b.address.toNat

def bytes (b : CommBuffer) (m : Memory) : Bytes := m.read b.start b.length

/-- Where the message begins; at the end of a buffer that has no room for a header. -/
def messageOffset (b : CommBuffer) : Nat := min CommHeader.size b.length

def capacity (b : CommBuffer) : Nat := b.length - CommHeader.size

def requestSize (b : CommBuffer) : Nat := CommHeader.size + b.messageLength

/-- The header in the buffer, which the other side may have changed. -/
def header? (b : CommBuffer) (m : Memory) : Option CommHeader := CommHeader.read? (b.bytes m)

def message (b : CommBuffer) (m : Memory) (length : Nat) : Bytes :=
  ((b.bytes m).drop CommHeader.size).take length

/-- Memory with the beginning of the message area replaced; what does not fit is dropped. -/
def writeMessage (b : CommBuffer) (m : Memory) (bytes : Bytes) : Memory :=
  m.write (b.start + b.messageOffset) (bytes.take b.capacity)

def reset (b : CommBuffer) (m : Memory) : CommBuffer × Memory :=
  ({ b with messageLength := 0, recipient := none }, m.write b.start (List.replicate b.length 0))

def setRecipient (b : CommBuffer) (g : Guid) : Except CommBufferError CommBuffer :=
  if b.length < CommHeader.size then .error .tooSmallForHeader
  else .ok { b with recipient := some g }

def setMessage (b : CommBuffer) (m : Memory) (message : Bytes) :
    Except CommBufferError (CommBuffer × Memory) :=
  if b.capacity < message.length then .error .tooSmallForMessage
  else
    match b.recipient with
    | none => .error .invalidRecipient
    | some recipient =>
      let header : CommHeader := ⟨recipient, .ofNat message.length⟩
      .ok ({ b with messageLength := message.length },
        m.write b.start (header.toBytes ++ message))

def debugText (b : CommBuffer) (m : Memory) : String :=
  let recipient := match b.recipient with
    | none => "None"
    | some g => "Some(" ++ hexText (leValue g.toBytes) ++ ")"
  let message := ", ".intercalate ((b.message m b.messageLength).map fun x => toString x.toNat)
  "CommunicateBuffer \x7b id: " ++ toString b.id.toNat ++ ", address: " ++ hexText b.start
    ++ ", len: " ++ toString b.length ++ ", recipient: " ++ recipient
    ++ ", message: [" ++ message ++ "] \x7d"

end CommBuffer
end PlatformInit
