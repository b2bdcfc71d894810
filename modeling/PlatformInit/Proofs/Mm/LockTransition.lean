import PlatformInit.Proofs.Mm.GatewayRuns

/-!
What an operation of a gateway has to do with the lock.

`perform_settles` says it once: an operation leaves the lock alone, or it makes the transition. It
then asks the chipset to lock, ends the rules that do not outlive the lock, and tells the core.
-/
set_option autoImplicit false
namespace PlatformInit

open Step (Ends Keeps Returns Unfailing)

namespace CommCall
variable {ω : Type}

def isLock : CommCall ω → Bool
  | window .lock _ => true
  | _ => false

def recipient? : CommCall ω → Option Guid
  | window .. => none
  | execute b m _ => some (CommHeader.decode (b.bytes m.memory)).recipient
  | manage recipient .. => some recipient

def announces (call : CommCall ω) : Bool := call.recipient? = some Guid.readyToLock

def aboutLock (call : CommCall ω) : Bool := call.isLock || call.announces

theorem aboutLock_of_recipient? {call : CommCall ω} {recipient : Guid}
    (h : call.recipient? = some recipient) :
    call.isLock = false ∧ call.aboutLock = decide (recipient = Guid.readyToLock) := by
  have hlock : call.isLock = false := by
    cases call with
    | window => cases h
    | execute => rfl
    | manage => rfl
  refine ⟨hlock, ?_⟩
  rw [aboutLock, hlock, Bool.false_or, announces, h]
  simp only [Option.some.injEq]

end CommCall

namespace Communicator
variable {ω : Type} {p : CommParts ω}

def signalCall? (p : CommParts ω) (recipient : Guid) (data : Bytes) (c : Communicator ω) :
    Option (CommCall ω) :=
  c.buffers.head?.bind fun b => requestCall? p b.id data recipient c

theorem calls_after_signal (p : CommParts ω) (recipient : Guid) (data : Bytes)
    (c : Communicator (Noted ω (CommCall ω))) :
    (Step.after (signal p.noting recipient data) c).machine.world.calls =
      (signalCall? p recipient data c.bare).toList ++ c.machine.world.calls := by
  have hbuffers : c.bare.buffers = c.buffers := rfl
  rw [signalCall?, hbuffers]
  cases hhead : c.buffers.head? with
  | none =>
    have hnone : signal p.noting recipient data c = .error (.error .noCommBuffer) c := by
      refine (Step.bind_of_ok rfl).trans ?_
      rw [hhead]
      rfl
    rw [Step.after_of_error hnone]
    rfl
  | some b =>
    rw [Step.after_congr (signal_of_head hhead recipient data), communicate_notes (noting_notes p),
      List.flatMap_singleton', Option.bind_some]

theorem recipient?_of_requestCall? {id : UInt8} {data : Bytes} {recipient : Guid} {c : Communicator ω}
    {call : CommCall ω} (h : requestCall? p id data recipient c = some call) :
    call.recipient? = some recipient := by
  rw [requestCall?] at h
  cases hprepare : prepare p.able c.buffers id data with
  | error e =>
    rw [hprepare] at h
    cases h
  | ok b =>
    rw [hprepare] at h
    obtain ⟨-, hroom⟩ := prepare_eq_ok hprepare
    have hbytes : (b.filled recipient data).bytes (c.request b recipient data).machine.memory =
        b.requestBytes recipient data :=
      CommBuffer.bytes_filledMemory hroom c.machine.memory recipient
    have hheader := b.header_requestBytes recipient data
    rw [← hbytes] at hheader
    obtain ⟨accepted, rfl⟩ | rfl := sendCall?_cases h
    · exact congrArg some hheader
    · exact congrArg some hheader

theorem recipient?_of_signalCall? {data : Bytes} {recipient : Guid} {c : Communicator ω}
    {call : CommCall ω} (h : signalCall? p recipient data c = some call) :
    call.recipient? = some recipient := by
  obtain ⟨b, -, hcall⟩ := Option.bind_eq_some_iff.mp h
  exact recipient?_of_requestCall? hcall

def lockNotes (c : Communicator (Noted ω (CommCall ω))) : List (CommCall ω) :=
  c.machine.world.calls.filter CommCall.aboutLock

theorem lockNotes_after_signal (p : CommParts ω) (recipient : Guid) (data : Bytes)
    (c : Communicator (Noted ω (CommCall ω))) :
    lockNotes (Step.after (signal p.noting recipient data) c) =
      (if recipient = Guid.readyToLock then (signalCall? p recipient data c.bare).toList else []) ++
        lockNotes c := by
  rw [lockNotes, calls_after_signal, List.filter_append]
  congr 1
  cases hcall : signalCall? p recipient data c.bare with
  | none => simp
  | some call =>
    obtain ⟨-, habout⟩ := CommCall.aboutLock_of_recipient? (recipient?_of_signalCall? hcall)
    by_cases hrecipient : recipient = Guid.readyToLock <;> simp [habout, hrecipient]

section
variable (p : CommParts ω) (notes : List (CommCall ω))

theorem signal_keeps_lockNotes {recipient : Guid} (h : recipient ≠ Guid.readyToLock) (data : Bytes) :
    Keeps (fun c => lockNotes c = notes) (signal p.noting recipient data) := by
  intro c hc
  refine Ends.iff_answer.mpr ?_
  dsimp only
  rw [lockNotes_after_signal, if_neg h]
  exact hc

theorem closeWindow_keeps_lockNotes : Keeps (fun c => lockNotes c = notes)
    (onMachine (Machine.onWorld p.noting.access.closeWindow) : Step _ EfiError Unit) := by
  intro c hc
  refine Ends.focus (Ends.focus (Ends.iff_answer.mpr ?_))
  rw [after_closeWindow_noting]
  refine Eq.trans ?_ hc
  change ((closeAttempt p c.machine.world.world) ++ c.machine.world.calls).filter _ = lockNotes c
  rw [List.filter_append, closeAttempt]
  split <;> rfl

theorem dispatchFrom_keeps_lockNotes (patience restarts : Nat) :
    Keeps (fun c => lockNotes c = notes) (dispatchFrom p.noting restarts patience) := by
  induction patience generalizing restarts with
  | zero => exact fun _ hc => hc
  | succ patience ih =>
    refine Keeps.bind (signal_keeps_lockNotes p notes (by decide) _) fun answer => ?_
    split
    · exact Keeps.bind (Keeps.ignoringError (closeWindow_keeps_lockNotes p notes)) fun _ => ih _
    · exact Keeps.pure _

end

end Communicator

/-! The rules. -/

def GatewayOp.source : GatewayOp → EventSource
  | start .. => .protocol Guid.readyToLock
  | signal source => source

def GatewayOp.opens : GatewayOp → Bool
  | start hobs _ => (hobs.dataOf? Guid.mmCoreData).isSome
  | signal _ => false

/-- The rules that are in force when an operation comes to its events. -/
def GatewayOp.opened (op : GatewayOp) (subscribed : List Bool) : List Bool :=
  if op.opens then List.replicate EventRule.all.length true else subscribed

namespace Gateway
variable {ω ε α : Type}

def rule? (source : EventSource) : Option (EventRule × Nat) :=
  EventRule.all.zipIdx.find? (·.1.source = source)

theorem rule?_eq_some {source : EventSource} {entry : EventRule × Nat} (h : rule? source = some entry) :
    entry ∈ EventRule.all.zipIdx ∧ entry.1.source = source := by
  have hsource := List.find?_some (p := fun entry : EventRule × Nat => entry.1.source = source) h
  exact ⟨List.mem_of_find?_eq_some h, of_decide_eq_true hsource⟩

theorem signal_eq (p : GatewayParts ω) (source : EventSource) :
    signal p source = (rule? source).elim (pure ⟨⟩) (notify p) := by
  have hsources : EventRule.all.zipIdx.Pairwise fun a b => a.1.source ≠ b.1.source := by decide
  have hone : EventRule.all.zipIdx.Pairwise fun a b =>
      ¬(a.1.source = source ∧ b.1.source = source) := hsources.imp fun hne h => hne (h.1.trans h.2.symm)
  exact Step.forM_ite_eq hone

def introduce (p : GatewayParts ω) (hobs : HobList) (systemTable : UInt64) :
    Step (Gateway ω) EfiError Unit := do
  send p Guid.systemTableInfo (le64 systemTable)
  hobs.nestedVolumes.forM fun (base, length, _) =>
    send p Guid.volumeDispatch (le64 base ++ le64 length)
  dispatchDrivers p

theorem start_eq (p : GatewayParts ω) (hobs : HobList) (systemTable : UInt64) (g : Gateway ω) :
    start p hobs systemTable g =
      if (hobs.dataOf? Guid.mmCoreData).isSome then
        (do readyToLock p (.protocol Guid.readyToLock); introduce p hobs systemTable)
          { g with subscribed := List.replicate EventRule.all.length true }
      else .error (.error .unsupported) g := by
  have hprotocols : EventRule.all.zipIdx.Pairwise fun a b =>
      ¬(a.1.source.isProtocol = true ∧ b.1.source.isProtocol = true) := by decide
  have hrules : (EventRule.all.zipIdx.forM fun entry =>
      if entry.1.source.isProtocol then notify p entry else pure ⟨⟩) =
        notify p (⟨.protocol Guid.readyToLock, true, .readyToLock⟩, 0) :=
    Step.forM_ite_eq hprotocols
  rw [start]
  cases hdata : hobs.dataOf? Guid.mmCoreData with
  | none => rfl
  | some data =>
    refine (Step.bind_of_ok rfl).trans ?_
    refine (congrFun (congrArg (· >>= _) hrules) _).trans ?_
    rfl

/-! The transition. -/

/-- Whether what a rule waits for has happened, and the world after the question. -/
def probe (p : GatewayParts ω) (source : EventSource) (w : ω) : Bool × ω :=
  match source with
  | .group _ => (true, w)
  | .protocol guid => p.isInstalled guid w

def shut (p : GatewayParts ω) (source : EventSource) (g : Gateway ω) : Gateway ω :=
  { g.withWorld (Step.after p.comm.access.lockWindow (probe p source g.world).2) with
    subscribed := closeSubscriptions g.subscribed }

theorem hasHappened_eq (p : GatewayParts ω) (source : EventSource) (g : Gateway ω) :
    hasHappened p source g = .ok (probe p source g.world).1 (g.withWorld (probe p source g.world).2) := by
  cases source <;> rfl

theorem after_onWorld (x : Step ω ε α) (g : Gateway ω) :
    Step.after (onWorld x) g = g.withWorld (Step.after x g.world) := by
  unfold onWorld onComm Communicator.onMachine Machine.onWorld
  rw [Step.after_focus, Step.after_focus, Step.after_focus]
  rfl

theorem lockWindow_eq (p : GatewayParts ω) (g : Gateway ω) :
    (Step.ignoringError (onWorld p.comm.access.lockWindow) : Step (Gateway ω) EfiError Unit) g =
      .ok () (g.withWorld (Step.after p.comm.access.lockWindow g.world)) := by
  have hreturns : Ends (onWorld p.comm.access.lockWindow) g fun r _ => Returns r :=
    Ends.focus (Ends.focus (Ends.focus (p.comm.access.unlessLocked_returns p.comm.access.lock g.world)))
  rw [Step.ignoringError_of_returns hreturns, after_onWorld]

theorem readyToLock_eq (p : GatewayParts ω) (source : EventSource) (g : Gateway ω) :
    readyToLock p source g =
      if g.locked then .ok () g
      else if (probe p source g.world).1 then
        (do forward p Guid.readyToLock; modify fun g => { g with locked := true } :
          Step (Gateway ω) EfiError Unit) (shut p source g)
      else .ok () (g.withWorld (probe p source g.world).2) := by
  rw [readyToLock]
  refine (Step.bind_of_ok rfl).trans ?_
  by_cases hlocked : g.locked = true
  · rw [if_pos hlocked, if_pos hlocked]
    rfl
  rw [if_neg hlocked, if_neg hlocked]
  refine (Step.bind_of_ok (hasHappened_eq p source g)).trans ?_
  by_cases hhappened : (probe p source g.world).1 = true
  · rw [if_pos hhappened, if_pos hhappened]
    refine (Step.bind_of_ok (lockWindow_eq p _)).trans ?_
    exact Step.bind_of_ok rfl
  · rw [if_neg hhappened, if_neg hhappened]
    rfl

theorem notify_eq (p : GatewayParts ω) {rule : EventRule} (haction : rule.action = .readyToLock)
    (i : Nat) (g : Gateway ω) : notify p (rule, i) g =
      if g.isSubscribed i then readyToLock p rule.source g else .ok () g := by
  refine (Step.bind_of_ok rfl).trans ?_
  rw [haction]
  split <;> rfl

/-- The call of an attempt to lock: none while the chipset is locked. -/
def lockAttempt (p : GatewayParts ω) (source : EventSource) (g : Gateway ω) : List (CommCall ω) :=
  if p.comm.access.isLocked (probe p source g.world).2 then []
  else [.window .lock (probe p source g.world).2]

/-- The call by which the core is told of the lock: none if the request cannot be put before it. -/
def announcement? (p : GatewayParts ω) (source : EventSource) (g : Gateway ω) : Option (CommCall ω) :=
  Communicator.signalCall? p.comm Guid.readyToLock [0] (shut p source g).comm

/-- What makes an unlocked gateway lock. -/
inductive Triggers (p : GatewayParts ω) (g : Gateway ω) : GatewayOp → Prop where
  | started {hobs : HobList} {systemTable : UInt64}
      (hcore : (hobs.dataOf? Guid.mmCoreData).isSome = true)
      (hinstalled : (p.isInstalled Guid.readyToLock g.world).1 = true) :
      Triggers p g (.start hobs systemTable)
  | installed (hsubscribed : g.isSubscribed 0 = true)
      (hinstalled : (p.isInstalled Guid.readyToLock g.world).1 = true) :
      Triggers p g (.signal (.protocol Guid.readyToLock))
  | readyToBoot (hsubscribed : g.isSubscribed 3 = true) :
      Triggers p g (.signal (.group Guid.readyToBoot))

structure Locks (p : GatewayParts ω) (g : Gateway ω) (op : GatewayOp) : Prop where
  unlocked : g.locked = false
  trigger : Triggers p g op

/-- How an operation ends, by what it has to do with the lock. -/
inductive Settles (p : GatewayParts ω) (op : GatewayOp) (g : Gateway ω)
    (r : Except (Fault EfiError) Unit) (t : Gateway ω) (notes : List (CommCall ω)) : Prop where
  | rests (hrests : ¬Locks p g op) (hlocked : t.locked = g.locked)
      (hsubscribed : t.subscribed = op.opened g.subscribed) (hnotes : notes = [])
  | locks (hlocks : Locks p g op) (hlocked : Returns r → t.locked = true)
      (hsubscribed : t.subscribed = closeSubscriptions (op.opened g.subscribed))
      (hnotes : notes = (announcement? p op.source g).toList ++ lockAttempt p op.source g)

theorem triggers_signal_iff {p : GatewayParts ω} {g : Gateway ω} {source : EventSource} :
    Triggers p g (.signal source) ↔ ∃ rule i, rule? source = some (rule, i) ∧
      rule.action = .readyToLock ∧ g.isSubscribed i = true ∧ (probe p source g.world).1 = true := by
  constructor
  · intro h
    cases h with
    | installed hsubscribed hinstalled => exact ⟨_, 0, rfl, rfl, hsubscribed, hinstalled⟩
    | readyToBoot hsubscribed => exact ⟨_, 3, rfl, rfl, hsubscribed, rfl⟩
  · rintro ⟨rule, i, hrule, haction, hsubscribed, hhappened⟩
    have hlocking : ∀ entry ∈ EventRule.all.zipIdx, entry.1.action = .readyToLock →
        entry.1.source = .protocol Guid.readyToLock ∧ entry.2 = 0 ∨
          entry.1.source = .group Guid.readyToBoot ∧ entry.2 = 3 := by decide
    obtain ⟨hentry, hsource⟩ := rule?_eq_some hrule
    obtain ⟨hprotocol, rfl⟩ | ⟨hgroup, rfl⟩ := hlocking _ hentry haction
    · obtain rfl := hsource.symm.trans hprotocol
      exact .installed hsubscribed hhappened
    · obtain rfl := hsource.symm.trans hgroup
      exact .readyToBoot hsubscribed

theorem locks_signal_iff {p : GatewayParts ω} {g : Gateway ω} {source : EventSource} {rule : EventRule}
    {i : Nat} (hrule : rule? source = some (rule, i)) : Locks p g (.signal source) ↔
      g.locked = false ∧ rule.action = .readyToLock ∧ g.isSubscribed i = true ∧
        (probe p source g.world).1 = true := by
  constructor
  · rintro ⟨hunlocked, htrigger⟩
    obtain ⟨_, _, hsome, hlocking⟩ := triggers_signal_iff.mp htrigger
    rw [hrule] at hsome
    cases hsome
    exact ⟨hunlocked, hlocking⟩
  · exact fun h => ⟨h.1, triggers_signal_iff.mpr ⟨rule, i, hrule, h.2⟩⟩

/-! Operations with notes. -/

def Rests (locked : Bool) (subscribed : List Bool) (notes : List (CommCall ω))
    (g : Gateway (Noted ω (CommCall ω))) : Prop :=
  g.locked = locked ∧ g.subscribed = subscribed ∧ g.comm.lockNotes = notes

theorem Settles.of_rests {p : GatewayParts ω} {op : GatewayOp} {g : Gateway ω}
    {r : Except (Fault EfiError) Unit} {t : Gateway (Noted ω (CommCall ω))} (hlocks : ¬Locks p g op)
    (ht : Rests g.locked (op.opened g.subscribed) [] t) :
    Settles p op g r t.bare t.comm.lockNotes :=
  .rests hlocks ht.1 ht.2.1 ht.2.2

theorem notifyCore_unfailing (x : Step (Communicator ω) CommError α) : Unfailing (notifyCore x) :=
  Unfailing.focus (Unfailing.ignoringError _)

theorem after_notifyCore (x : Step (Communicator ω) CommError α) (g : Gateway ω) :
    Step.after (notifyCore x) g = { g with comm := Step.after x g.comm } := by
  unfold notifyCore onComm
  rw [Step.after_focus, Step.after_ignoringError]
  exact congrArg _ (Step.after_bind_pure x _ g.comm)

section
variable (p : GatewayParts ω) {locked : Bool} {subscribed : List Bool} {notes : List (CommCall ω)}

theorem notifyCore_rests {x : Step (Communicator (Noted ω (CommCall ω))) CommError α}
    (hx : Keeps (fun c => c.lockNotes = notes) x) :
    Keeps (Rests locked subscribed notes) (notifyCore x) := by
  rintro g ⟨hlocked, hsubscribed, hnotes⟩
  refine Ends.iff_answer.mpr ?_
  rw [after_notifyCore]
  exact ⟨hlocked, hsubscribed, Ends.iff_answer.mp (hx g.comm hnotes)⟩

theorem send_rests {recipient : Guid} (h : recipient ≠ Guid.readyToLock) (data : Bytes) :
    Keeps (Rests locked subscribed notes) (send p.noting recipient data) :=
  notifyCore_rests (Communicator.signal_keeps_lockNotes p.comm notes h data)

theorem dispatchDrivers_rests : Keeps (Rests locked subscribed notes) (dispatchDrivers p.noting) :=
  notifyCore_rests (Communicator.dispatchFrom_keeps_lockNotes p.comm notes _ _)

theorem introduce_rests (hobs : HobList) (systemTable : UInt64) :
    Keeps (Rests locked subscribed notes) (introduce p.noting hobs systemTable) :=
  Keeps.bind (send_rests p (by decide) _) fun _ =>
    Keeps.bind (Keeps.forM fun _ _ => send_rests p (by decide) _) fun _ => dispatchDrivers_rests p

/-- Only the rules that lock have to do with the lock. -/
theorem notify_rests {entry : EventRule × Nat} (hentry : entry ∈ EventRule.all.zipIdx)
    (haction : entry.1.action ≠ .readyToLock) :
    Keeps (Rests locked subscribed notes) (notify p.noting entry) := by
  have hguid : ∀ entry ∈ EventRule.all.zipIdx, entry.1.action ≠ .readyToLock →
      entry.1.source.guid ≠ Guid.readyToLock := by decide
  intro g hg
  refine Ends.get_bind ?_
  split
  · cases hcase : entry.1.action with
    | readyToLock => exact absurd hcase haction
    | forward => exact send_rests p (hguid entry hentry haction) _ g hg
    | dispatch => exact dispatchDrivers_rests p g hg
    | goneVirtual => exact hg
  · exact hg

variable (source : EventSource) (g : Gateway ω)

theorem probe_noted (calls : List (CommCall ω)) : probe p.noting source (g.noted calls).world =
    ((probe p source g.world).1, ⟨(probe p source g.world).2, calls⟩) := by
  cases source <;> rfl

theorem shut_noted : shut p.noting source (g.noted []) =
    (shut p source g).noted (lockAttempt p source g) := by
  have hlock : Step.after p.noting.comm.access.lockWindow ⟨(probe p source g.world).2, []⟩ =
      ⟨Step.after p.comm.access.lockWindow (probe p source g.world).2, lockAttempt p source g ++ []⟩ :=
    SmramAccess.after_unlessLocked_call _ p.comm.noting_mirrors.access _ _
  rw [shut, probe_noted, hlock, List.append_nil]
  rfl

variable {g}

theorem readyToLock_rests (h : ¬(g.locked = false ∧ (probe p source g.world).1 = true)) :
    Ends (readyToLock p.noting source) (g.noted []) fun _ => Rests g.locked g.subscribed [] := by
  refine Ends.iff_answer.mpr ?_
  have heq := readyToLock_eq p.noting source (g.noted [])
  rw [probe_noted] at heq
  by_cases hlocked : (g.noted ([] : List (CommCall ω))).locked = true
  · rw [if_pos hlocked] at heq
    rw [Step.after_of_ok heq]
    exact ⟨rfl, rfl, rfl⟩
  · have hhappened : ¬(probe p source g.world).1 = true := fun hhappened =>
      h ⟨Bool.eq_false_iff.mpr hlocked, hhappened⟩
    rw [if_neg hlocked, if_neg hhappened] at heq
    rw [Step.after_of_ok heq]
    exact ⟨rfl, rfl, rfl⟩

theorem readyToLock_locks (hunlocked : g.locked = false)
    (hhappened : (probe p source g.world).1 = true) :
    Ends (readyToLock p.noting source) (g.noted []) fun r t => (Returns r → t.locked = true) ∧
      t.subscribed = closeSubscriptions g.subscribed ∧
      t.comm.lockNotes = (announcement? p source g).toList ++ lockAttempt p source g := by
  have heq := readyToLock_eq p.noting source (g.noted [])
  rw [probe_noted, if_neg (show ¬(g.noted ([] : List (CommCall ω))).locked = true from
    Bool.eq_false_iff.mp hunlocked), if_pos hhappened, shut_noted] at heq
  refine Ends.congr heq ?_
  have hattempt : (lockAttempt p source g).filter CommCall.aboutLock = lockAttempt p source g := by
    unfold lockAttempt
    split <;> rfl
  have hnotes : (Step.after (Communicator.signal p.comm.noting Guid.readyToLock [0])
      ((shut p source g).comm.noted (lockAttempt p source g))).lockNotes =
        (announcement? p source g).toList ++ lockAttempt p source g := by
    rw [Communicator.lockNotes_after_signal, if_pos rfl, Communicator.lockNotes]
    exact congrArg _ hattempt
  have htold : Ends (forward p.noting Guid.readyToLock)
      ((shut p source g).noted (lockAttempt p source g)) fun r t =>
        t.subscribed = closeSubscriptions g.subscribed ∧
        t.comm.lockNotes = (announcement? p source g).toList ++ lockAttempt p source g := by
    refine Ends.iff_answer.mpr ?_
    unfold forward send
    rw [after_notifyCore]
    exact ⟨rfl, hnotes⟩
  cases hend : forward p.noting Guid.readyToLock ((shut p source g).noted (lockAttempt p source g)) with
  | ok a t =>
    obtain ⟨hsubscribed, hlockNotes⟩ := htold.of_ok hend
    exact Ends.bind_of_ok hend ⟨fun _ => rfl, hsubscribed, hlockNotes⟩
  | error e t =>
    refine Ends.bind_of_error hend ⟨fun hreturns => ?_, htold.of_error hend⟩
    obtain ⟨a, ha⟩ := (notifyCore_unfailing _ _).of_error hend hreturns
    cases ha

variable (g)

theorem notify_settles {rule : EventRule} {i : Nat} (hrule : rule? source = some (rule, i))
    (haction : rule.action = .readyToLock) :
    Ends (notify p.noting (rule, i)) (g.noted []) fun r t =>
      Settles p (.signal source) g r t.bare t.comm.lockNotes := by
  obtain ⟨-, rfl⟩ := rule?_eq_some hrule
  have hnotify := notify_eq p.noting haction i (g.noted [])
  have hsame : (g.noted ([] : List (CommCall ω))).isSubscribed i = g.isSubscribed i := rfl
  rw [hsame] at hnotify
  by_cases hsubscribed : g.isSubscribed i = true
  · rw [if_pos hsubscribed] at hnotify
    refine Ends.congr hnotify ?_
    by_cases hlocks : Locks p g (.signal rule.source)
    · obtain ⟨hunlocked, -, -, hhappened⟩ := (locks_signal_iff hrule).mp hlocks
      exact (readyToLock_locks p rule.source hunlocked hhappened).mono fun _ _ ht =>
        .locks hlocks ht.1 ht.2.1 ht.2.2
    · refine (readyToLock_rests p rule.source fun h => ?_).mono fun _ _ => Settles.of_rests hlocks
      exact hlocks ((locks_signal_iff hrule).mpr ⟨h.1, haction, hsubscribed, h.2⟩)
  · rw [if_neg hsubscribed] at hnotify
    refine Ends.congr hnotify (Settles.of_rests (fun hlocks => ?_) ⟨rfl, rfl, rfl⟩)
    obtain ⟨-, -, hsome, -⟩ := (locks_signal_iff hrule).mp hlocks
    exact hsubscribed hsome

theorem signal_settles : Ends (perform p.noting (.signal source)) (g.noted []) fun r t =>
    Settles p (.signal source) g r t.bare t.comm.lockNotes := by
  have hsignal : perform p.noting (.signal source) =
      (rule? source).elim (pure ⟨⟩) (notify p.noting) := signal_eq p.noting source
  rw [hsignal]
  cases hrule : rule? source with
  | none =>
    refine Settles.of_rests (fun hlocks => ?_) ⟨rfl, rfl, rfl⟩
    obtain ⟨rule, i, hsome, -⟩ := triggers_signal_iff.mp hlocks.trigger
    rw [hrule] at hsome
    cases hsome
  | some entry =>
    obtain ⟨rule, i⟩ := entry
    by_cases haction : rule.action = .readyToLock
    · exact notify_settles p source g hrule haction
    · obtain ⟨hentry, -⟩ := rule?_eq_some hrule
      have hbefore : Rests g.locked g.subscribed [] (g.noted []) := ⟨rfl, rfl, rfl⟩
      refine (notify_rests p hentry haction _ hbefore).mono fun _ _ ht =>
        Settles.of_rests (fun hlocks => ?_) ht
      obtain ⟨-, hlocking, -⟩ := (locks_signal_iff hrule).mp hlocks
      exact haction hlocking

theorem start_settles (hobs : HobList) (systemTable : UInt64) :
    Ends (perform p.noting (.start hobs systemTable)) (g.noted []) fun r t =>
      Settles p (.start hobs systemTable) g r t.bare t.comm.lockNotes := by
  have hstart := start_eq p.noting hobs systemTable (g.noted [])
  by_cases hcore : (hobs.dataOf? Guid.mmCoreData).isSome = true
  · have hopens (subscribed : List Bool) : (GatewayOp.start hobs systemTable).opened subscribed =
        List.replicate EventRule.all.length true := if_pos hcore
    rw [if_pos hcore] at hstart
    refine Ends.congr hstart ?_
    let opened : Gateway ω := { g with subscribed := List.replicate EventRule.all.length true }
    have hworld : opened.world = g.world := rfl
    by_cases hlocks : Locks p g (.start hobs systemTable)
    · have hinstalled : (probe p (.protocol Guid.readyToLock) opened.world).1 = true := by
        cases hlocks.trigger with
        | started _ hinstalled => exact hinstalled
      refine Ends.bind (readyToLock_locks p (g := opened) _ hlocks.unlocked hinstalled)
        (fun a t ht => ?_) fun e t ht => ?_
      · obtain ⟨hlocked, hsubscribed, hnotes⟩ := ht
        refine (introduce_rests p hobs systemTable t ⟨hlocked trivial, hsubscribed, hnotes⟩).mono
          fun _ _ ht => .locks hlocks (fun _ => ht.1) ?_ ht.2.2
        rw [hopens]
        exact ht.2.1
      · refine .locks hlocks ht.1 ?_ ht.2.2
        rw [hopens]
        exact ht.2.1
    · have hrests {r : Except (Fault EfiError) Unit} {t : Gateway (Noted ω (CommCall ω))}
          (ht : Rests opened.locked opened.subscribed [] t) :
          Settles p (.start hobs systemTable) g r t.bare t.comm.lockNotes :=
        Settles.of_rests hlocks ⟨ht.1, ht.2.1.trans (hopens _).symm, ht.2.2⟩
      refine Ends.bind (readyToLock_rests p (g := opened) _ fun h => ?_)
        (fun a t ht => (introduce_rests p hobs systemTable t ht).mono fun _ _ => hrests)
        fun e t ht => hrests ht
      exact hlocks ⟨h.1, .started hcore h.2⟩
  · rw [if_neg hcore] at hstart
    have hopens : (GatewayOp.start hobs systemTable).opened g.subscribed = g.subscribed := if_neg hcore
    have hfail : perform p.noting (.start hobs systemTable) (g.noted []) =
        Step.fail .unsupported (g.noted []) := hstart
    refine Ends.congr hfail (Settles.of_rests (fun hlocks => ?_) ⟨rfl, hopens.symm, rfl⟩)
    cases hlocks.trigger with
    | started hsome => exact hcore hsome

/-- Every operation leaves the lock alone or makes the transition. -/
theorem perform_settles (op : GatewayOp) : Settles p op g (Step.answer (perform p op) g)
    (Step.after (perform p op) g) ((calls p op g).filter CommCall.aboutLock) := by
  have hends : Ends (perform p.noting op) (g.noted []) fun r t =>
      Settles p op g r t.bare t.comm.lockNotes := by
    cases op with
    | start hobs systemTable => exact start_settles p g hobs systemTable
    | signal source => exact signal_settles p source g
  have hfollows := perform_follows p.noting_mirrors op
  have hanswer := hfollows.answer (g.noted [])
  have hafter := hfollows.after (g.noted [])
  have hsettles := Ends.iff_answer.mp hends
  rw [← hanswer, ← hafter] at hsettles
  exact hsettles

end

end Gateway
end PlatformInit
