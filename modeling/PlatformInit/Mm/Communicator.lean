import PlatformInit.Mm.CommBuffer
import PlatformInit.Mm.CoreRecord
import PlatformInit.Mm.Trigger
import PlatformInit.Smram.Access

/-!
Requests to the handlers in management mode (MM).

Once the MM core has registered its entry point, a request goes through the core's mailbox and a
software MMI. Before that, and from inside MM, it goes straight to the core's dispatcher; that path
is closed once the firmware uses virtual addresses, and from outside of MM while SMRAM is closed or
locked. One request is under way at a time.
-/
set_option autoImplicit false
namespace PlatformInit

inductive CommError where
  | noCommBuffer
  | commBufferNotFound
  | commBufferTooSmall
  | commBufferInitError
  | invalidDataBuffer
  | swMmiServiceNotAvailable
  | swMmiFailed
  | invalidResponse
  | invalidParameter
  | handlerNotFound
  | mmHandlerFailed (status : Status)
  deriving DecidableEq

def CommError.toEfi : CommError → EfiError
  | noCommBuffer => .notFound
  | commBufferNotFound => .notFound
  | handlerNotFound => .notFound
  | commBufferTooSmall => .bufferTooSmall
  | commBufferInitError => .invalidParameter
  | invalidDataBuffer => .invalidParameter
  | invalidParameter => .invalidParameter
  | swMmiServiceNotAvailable => .notReady
  | swMmiFailed => .deviceError
  | invalidResponse => .deviceError
  | mmHandlerFailed status =>
    match status.toExcept with
    | .ok () => .deviceError
    | .error e => e

structure MmExecutor (σ : Type) where
  execute : CommBuffer → Attempt σ CommError Unit

def MmiTrigger.executor {σ : Type} (t : MmiTrigger σ) (command : Option UInt8) : MmExecutor σ where
  execute _ s :=
    match t.trigger (command.map ([·])) false 0 s with
    | .ok () s => .ok () s
    | .error _ s => .error .swMmiFailed s

structure HandlerReply where
  area : Bytes
  size : UInt64
  status : Status

/-- The core's dispatcher of handlers, over a state `σ`. It is given the handler's name, the message
area and the length of the message. -/
structure SmiManage (σ : Type) where
  manage : Guid → Bytes → UInt64 → σ → HandlerReply × σ

structure CommParts (ω : Type) where
  core : UInt64
  access : SmramAccess ω
  executor : Option (MmExecutor (Machine ω))
  direct : Option (SmiManage (Machine ω))
  /-- How many times the core may be asked to go on with a dispatch. -/
  patience : Nat

/-- The buffers, whether the firmware uses virtual addresses, and the machine. -/
structure Communicator (ω : Type) where
  buffers : List CommBuffer
  goneVirtual : Bool
  machine : Machine ω

namespace Communicator
variable {ω ε α : Type}

def new (buffers : List CommBuffer) (machine : Machine ω) : Communicator ω := ⟨buffers, false, machine⟩

def onMachine (x : Step (Machine ω) ε α) : Step (Communicator ω) ε α :=
  Step.focus Communicator.machine (fun m c => { c with machine := m }) x

def setGoneVirtual (c : Communicator ω) : Communicator ω := { c with goneVirtual := true }

def usesMailbox (p : CommParts ω) (m : Machine ω) : Bool :=
  !(m.cores p.core).inMm && (m.cores p.core).registered

def sendByMmi (p : CommParts ω) (b : CommBuffer) (size : UInt64) :
    Step (Machine ω) CommError (Status × UInt64) := do
  match p.executor with
  | none => Step.fail .swMmiServiceNotAvailable
  | some executor =>
    modify fun m => m.updateCore p.core (·.post b.address size)
    match ← Step.attempt (Step.ofAttempt (executor.execute b)) with
    | .error _ =>
      modify fun m => m.updateCore p.core (·.clear)
      Step.fail .swMmiFailed
    | .ok () =>
      let core := (← get).cores p.core
      modify fun m => m.updateCore p.core (·.clear)
      return (if core.status = Status.success then core.status else core.status.asError,
        core.bufferSize)

def sendDirectly (p : CommParts ω) (b : CommBuffer) (size : UInt64) (goneVirtual : Bool) :
    Step (Machine ω) CommError (Status × UInt64) := do
  let m ← get
  let inMm := (m.cores p.core).inMm
  if goneVirtual then Step.fail .invalidParameter
  else if !inMm && (!p.access.isOpen m.world || p.access.isLocked m.world) then
    Step.fail .invalidParameter
  else
    match p.direct, b.header? m.memory with
    | none, _ => Step.fail .swMmiFailed
    | some _, none => Step.fail .invalidParameter
    | some direct, some header =>
      let m := m.updateCore p.core fun r => { r with inMm := true }
      let (reply, m) := direct.manage header.recipient (b.message m.memory b.capacity)
        (size - .ofNat CommHeader.size) m
      set { m with memory := b.writeMessage m.memory reply.area }
      let size ← Step.ofHalting (add64 reply.size (.ofNat CommHeader.size))
      modify fun m => m.updateCore p.core fun r => { r with inMm }
      return (if reply.status = Status.success ∨ reply.status = Status.notFound then reply.status
        else reply.status.asError, size)

/-- Sends the request in a buffer; answers the status of the MM side and the size of the reply. An
error means that the request did not reach a handler. -/
def send (p : CommParts ω) (b : CommBuffer) (size : UInt64) :
    Step (Communicator ω) CommError (Status × UInt64) := do
  let c ← get
  if size.toNat < CommHeader.size ∨ b.length < size.toNat then Step.fail .invalidParameter
  else if usesMailbox p c.machine then onMachine (sendByMmi p b size)
  else onMachine (sendDirectly p b size c.goneVirtual)

def buffer? (c : Communicator ω) (id : UInt8) : Option CommBuffer := c.buffers.find? (·.id = id)

def putBuffer (b : CommBuffer) : List CommBuffer → List CommBuffer
  | [] => []
  | a :: rest => if a.id = b.id then b :: rest else a :: putBuffer b rest

/-- Sends the request that is already in a buffer; answers the status and the size. A request that is
refused is an invalid parameter, one that cannot be delivered is unsupported. -/
def sendRaw (p : CommParts ω) (id : UInt8) (size : UInt64) :
    Step (Communicator ω) Empty (Status × UInt64) := do
  match (← get).buffer? id with
  | none => return (Status.invalidParameter, size)
  | some b =>
    match ← Step.attempt (send p b size) with
    | .ok reply => return reply
    | .error .invalidParameter => return (Status.invalidParameter, size)
    | .error _ => return (Status.unsupported, size)

def fill (c : Communicator ω) (b : CommBuffer) (recipient : Guid) (data : Bytes) :
    Except CommBufferError (CommBuffer × Memory) := do
  let (b, memory) := b.reset c.machine.memory
  let b ← b.setRecipient recipient
  b.setMessage memory data

/-- The reply in a buffer, if its size makes sense. -/
def reply (b : CommBuffer) (size : UInt64) : Step (Communicator ω) CommError Bytes := do
  if size.toNat < CommHeader.size ∨ b.length < size.toNat then Step.fail .invalidResponse
  else return b.message (← get).machine.memory (size.toNat - CommHeader.size)

/-- Sends data to a handler through the buffer called `id` and answers its reply. -/
def communicate (p : CommParts ω) (id : UInt8) (data : Bytes) (recipient : Guid) :
    Step (Communicator ω) CommError Bytes := do
  let c ← get
  if c.buffers.isEmpty then Step.fail .noCommBuffer
  else if data.isEmpty then Step.fail .invalidDataBuffer
  else if p.executor.isNone && p.direct.isNone then Step.fail .swMmiServiceNotAvailable
  else
    match c.buffer? id with
    | none => Step.fail .commBufferNotFound
    | some b =>
      if b.length < CommHeader.size + data.length then Step.fail .commBufferTooSmall
      else
        match c.fill b recipient data with
        | .error _ => Step.fail .commBufferInitError
        | .ok (b, memory) =>
          set { c with buffers := putBuffer b c.buffers, machine := { c.machine with memory } }
          let (status, size) ← send p b (.ofNat b.requestSize)
          if status = Status.success then reply b size
          else if status = Status.notFound then Step.fail .handlerNotFound
          else Step.fail (.mmHandlerFailed status)

def signal (p : CommParts ω) (recipient : Guid) (data : Bytes) : Step (Communicator ω) CommError Bytes := do
  match (← get).buffers.head? with
  | none => Step.fail .noCommBuffer
  | some b => communicate p b.id data recipient

/-- First bytes of messages about a dispatch: the core met an error, it is done, or drivers are still
waiting. -/
def dispatchError : UInt8 := 0
def dispatchSuccess : UInt8 := 1
def dispatchRestart : UInt8 := 2

/-- Asks the core to dispatch its drivers, again and again while drivers are waiting. SMRAM is closed
before each new request. Answers how many there were after the first. -/
def dispatchFrom (p : CommParts ω) (restarts : Nat) : Nat → Step (Communicator ω) CommError Nat
  | 0 => Step.stop .unfinished
  | patience + 1 => do
    let answer ← signal p Guid.driverDispatch [dispatchError]
    if answer.head? = some dispatchRestart then
      Step.ignoringError (onMachine (Machine.onWorld p.access.closeWindow))
      dispatchFrom p (restarts + 1) patience
    else return restarts

def runDispatcher (p : CommParts ω) : Step (Communicator ω) CommError Nat :=
  dispatchFrom p 0 p.patience

def debugText (p : CommParts ω) (c : Communicator ω) : String :=
  "MM Communicator:\n"
    ++ String.join (c.buffers.map fun b => "Comm Buffer: " ++ b.debugText c.machine.memory ++ "\n")
    ++ "MM Executor Set: " ++ toString p.executor.isSome ++ "\n"
    ++ "Direct Dispatch Set: " ++ toString p.direct.isSome ++ "\n"

end Communicator
end PlatformInit
