import PlatformInit.Mm.Communicator

/-!
The gateway that passes events of the boot on to the management mode (MM) core and locks SMRAM when
the platform is ready.

What each event does is fixed by `EventRule.all`. A rule about a protocol is also tried when the
gateway starts, for a protocol that is there already.
-/
set_option autoImplicit false
namespace PlatformInit

/-- What an event is about: a protocol that was installed, or an event group that was signaled. -/
inductive EventSource where
  | protocol (guid : Guid)
  | group (guid : Guid)
  deriving DecidableEq

namespace EventSource

def guid : EventSource → Guid
  | protocol g => g
  | group g => g

def isProtocol : EventSource → Bool
  | protocol _ => true
  | group _ => false

end EventSource

inductive GatewayAction where
  | readyToLock
  | forward
  | dispatch
  | goneVirtual
  deriving DecidableEq

structure EventRule where
  source : EventSource
  /-- The rule ends when SMRAM is locked. -/
  closeOnLock : Bool
  action : GatewayAction
  deriving DecidableEq

def EventRule.all : List EventRule :=
  [⟨.protocol Guid.readyToLock, true, .readyToLock⟩, ⟨.group Guid.endOfDxe, false, .forward⟩,
    ⟨.group Guid.driverDispatch, true, .dispatch⟩, ⟨.group Guid.readyToBoot, true, .readyToLock⟩,
    ⟨.group Guid.legacyBoot, false, .forward⟩,
    ⟨.group Guid.virtualAddressChange, false, .goneVirtual⟩]

structure Gateway (ω : Type) where
  locked : Bool
  subscribed : List Bool
  comm : Communicator ω

structure GatewayParts (ω : Type) where
  comm : CommParts ω
  isInstalled : Guid → ω → Bool × ω

namespace Gateway
variable {ω ε α : Type}

def new (comm : Communicator ω) : Gateway ω := ⟨false, List.replicate EventRule.all.length false, comm⟩

def onComm (x : Step (Communicator ω) ε α) : Step (Gateway ω) ε α :=
  Step.focus Gateway.comm (fun c g => { g with comm := c }) x

def onWorld (x : Step ω ε α) : Step (Gateway ω) ε α :=
  onComm (Communicator.onMachine (Machine.onWorld x))

def isSubscribed (g : Gateway ω) (index : Nat) : Bool := g.subscribed.getD index false

/-- Runs a request; its answer is not looked at, and an error is passed over. -/
def notifyCore (x : Step (Communicator ω) CommError α) : Step (Gateway ω) EfiError Unit :=
  onComm (Step.ignoringError do
    let _ ← x)

def send (p : GatewayParts ω) (recipient : Guid) (data : Bytes) : Step (Gateway ω) EfiError Unit :=
  notifyCore (Communicator.signal p.comm recipient data)

def forward (p : GatewayParts ω) (event : Guid) : Step (Gateway ω) EfiError Unit := send p event [0]

def dispatchDrivers (p : GatewayParts ω) : Step (Gateway ω) EfiError Unit :=
  notifyCore (Communicator.runDispatcher p.comm)

/-- Whether what a rule waits for has happened. An event group has been signaled, while a protocol may
still be missing. -/
def hasHappened (p : GatewayParts ω) (source : EventSource) : Step (Gateway ω) EfiError Bool :=
  match source with
  | .group _ => return true
  | .protocol g => onWorld fun w =>
    let (installed, w) := p.isInstalled g w
    .ok installed w

def closeSubscriptions (subscribed : List Bool) : List Bool :=
  List.zipWith (fun active (rule : EventRule) => active && !rule.closeOnLock) subscribed EventRule.all

/-- Locks SMRAM and tells the core, once. A lock that the chipset refuses is passed over. -/
def readyToLock (p : GatewayParts ω) (source : EventSource) : Step (Gateway ω) EfiError Unit := do
  if (← get).locked then return ()
  else if ← hasHappened p source then
    Step.ignoringError (onWorld p.comm.access.lockWindow)
    modify fun g => { g with subscribed := closeSubscriptions g.subscribed }
    forward p Guid.readyToLock
    modify fun g => { g with locked := true }

def notify (p : GatewayParts ω) (entry : EventRule × Nat) : Step (Gateway ω) EfiError Unit := do
  let (rule, index) := entry
  if (← get).isSubscribed index then
    match rule.action with
    | .readyToLock => readyToLock p rule.source
    | .forward => forward p rule.source.guid
    | .dispatch => dispatchDrivers p
    | .goneVirtual => modify fun g => { g with comm := g.comm.setGoneVirtual }

def signal (p : GatewayParts ω) (source : EventSource) : Step (Gateway ω) EfiError Unit :=
  EventRule.all.zipIdx.forM fun entry => do
    if entry.1.source = source then notify p entry

/-- Puts all rules in force and hands the environment to the core: the system table, the volumes, and
a request to dispatch drivers. -/
def start (p : GatewayParts ω) (hobs : HobList) (systemTable : UInt64) :
    Step (Gateway ω) EfiError Unit := do
  if (hobs.dataOf? Guid.mmCoreData).isNone then Step.fail .unsupported
  else
    modify fun g => { g with subscribed := List.replicate EventRule.all.length true }
    EventRule.all.zipIdx.forM fun entry => do
      if entry.1.source.isProtocol then notify p entry
    send p Guid.systemTableInfo (le64 systemTable)
    hobs.nestedVolumes.forM fun (base, length, _) =>
      send p Guid.volumeDispatch (le64 base ++ le64 length)
    dispatchDrivers p

end Gateway
end PlatformInit
