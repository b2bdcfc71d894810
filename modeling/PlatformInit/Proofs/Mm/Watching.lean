import PlatformInit.Proofs.Mm.GatewayInvariants

/-!
The components of management mode (MM) on one machine, and what their collaborators do to the world.

The loader, the communicator, the gateway and the table of ranges share one chipset. `watched` lets
any collaborators do what they do and notes each call with the world before and after it.
-/
set_option autoImplicit false
namespace PlatformInit

open Step (Ends Follows Keeps)

/-- A call of a collaborator: the transition of the window that it is, if it is one, and the world
before and after it. -/
structure Encounter (ω : Type) where
  transition : Option WindowCall
  found : ω
  left : ω

section
variable {ω ε α : Type}

namespace Noted

def watch (transition : Option WindowCall) (x : EStateM ε ω α) :
    EStateM ε (Noted ω (Encounter ω)) α := fun n =>
  match x n.world with
  | .ok a w => .ok a ⟨w, ⟨transition, n.world, w⟩ :: n.calls⟩
  | .error e w => .error e ⟨w, ⟨transition, n.world, w⟩ :: n.calls⟩

theorem watch_follows (transition : Option WindowCall) (x : EStateM ε ω α) :
    Follows Noted.world (watch transition x) x := by
  intro n
  unfold watch
  cases x n.world <;> rfl

end Noted

namespace Machine

def watched (before : Machine (Noted ω (Encounter ω))) (after : Machine ω) :
    Machine (Noted ω (Encounter ω)) :=
  after.noted (⟨none, before.world.world, after.world⟩ :: before.world.calls)

def watch (x : EStateM ε (Machine ω) α) : EStateM ε (Machine (Noted ω (Encounter ω))) α := fun m =>
  match x m.bare with
  | .ok a after => .ok a (m.watched after)
  | .error e after => .error e (m.watched after)

theorem watch_follows (x : EStateM ε (Machine ω) α) : Follows Machine.bare (watch x) x := by
  intro m
  unfold watch
  cases x m.bare <;> rfl

end Machine

def SmramAccess.watched (a : SmramAccess ω) : SmramAccess (Noted ω (Encounter ω)) where
  reveal := Noted.watch (some .reveal) a.reveal
  hide := Noted.watch (some .hide) a.hide
  lock := Noted.watch (some .lock) a.lock
  isOpen n := a.isOpen n.world
  isLocked n := a.isLocked n.world

def IplParts.watched (p : IplParts ω) : IplParts (Noted ω (Encounter ω)) where
  config := p.config
  reader := p.reader
  access := p.access.watched
  cache := {
    reset := Noted.watch none p.cache.reset
    setAttributes base length type := Noted.watch none (p.cache.setAttributes base length type) }
  launcher := {
    writeImage destination image := Machine.watch (p.launcher.writeImage destination image)
    invalidate base length m := m.watched (p.launcher.invalidate base length m.bare)
    startCore entryPoint hobs m :=
      let (status, after) := p.launcher.startCore entryPoint hobs m.bare
      (status, m.watched after) }

def MmExecutor.watched (e : MmExecutor (Machine ω)) : MmExecutor (Machine (Noted ω (Encounter ω))) where
  execute b := Machine.watch (e.execute b)

def SmiManage.watched (d : SmiManage (Machine ω)) : SmiManage (Machine (Noted ω (Encounter ω))) where
  manage recipient area length m :=
    let (reply, after) := d.manage recipient area length m.bare
    (reply, m.watched after)

def CommParts.watched (p : CommParts ω) : CommParts (Noted ω (Encounter ω)) where
  core := p.core
  access := p.access.watched
  executor := p.executor.map MmExecutor.watched
  direct := p.direct.map SmiManage.watched
  patience := p.patience

def GatewayParts.watched (p : GatewayParts ω) : GatewayParts (Noted ω (Encounter ω)) where
  comm := p.comm.watched
  isInstalled guid n :=
    let (installed, w) := p.isInstalled guid n.world
    (installed, ⟨w, ⟨none, n.world, w⟩ :: n.calls⟩)

theorem SmramAccess.watched_mirrors (a : SmramAccess ω) : a.watched.Mirrors a where
  reveal := Noted.watch_follows _ _
  hide := Noted.watch_follows _ _
  lock := Noted.watch_follows _ _
  isOpen _ := rfl
  isLocked _ := rfl

theorem IplParts.watched_mirrors (p : IplParts ω) : p.watched.Mirrors p where
  config := rfl
  reader := rfl
  access := p.access.watched_mirrors
  setAttributes _ _ _ := Noted.watch_follows _ _
  writeImage _ _ := Machine.watch_follows _
  invalidate _ _ _ := rfl
  startCore _ _ _ := rfl

theorem CommParts.watched_mirrors (p : CommParts ω) : p.watched.Mirrors p where
  core := rfl
  patience := rfl
  access := p.access.watched_mirrors
  executor := by
    change Option.Rel _ (p.executor.map MmExecutor.watched) p.executor
    cases p.executor with
    | none => exact .none
    | some e => exact .some fun b => Machine.watch_follows (e.execute b)
  direct := by
    change Option.Rel _ (p.direct.map SmiManage.watched) p.direct
    cases p.direct with
    | none => exact .none
    | some d => exact .some fun _ _ _ _ => rfl

theorem GatewayParts.watched_mirrors (p : GatewayParts ω) : p.watched.Mirrors p where
  comm := p.comm.watched_mirrors
  isInstalled _ _ := rfl

end

structure MmParts (ω : Type) where
  ipl : IplParts ω
  gateway : GatewayParts ω
  same : gateway.comm.access = ipl.access

structure MmState (ω : Type) where
  hobs : HobList
  table : SmramTable
  gateway : Gateway ω

/-- The operations that may ask for a transition of the window. -/
inductive MmOp where
  | openRanges
  | closeRanges
  | openWindow
  | closeWindow
  | lockWindow
  | loadCore (volumes : List MappedVolume)
  | communicator (op : CommOp)
  | gateway (op : GatewayOp)

namespace MmParts
variable {ω : Type}

def access (p : MmParts ω) : SmramAccess ω := p.ipl.access

def watched (p : MmParts ω) : MmParts (Noted ω (Encounter ω)) where
  ipl := p.ipl.watched
  gateway := p.gateway.watched
  same := congrArg SmramAccess.watched p.same

structure KeepsWorld (I : ω → Prop) (p : MmParts ω) : Prop where
  ipl : p.ipl.KeepsWorld I
  gateway : p.gateway.KeepsWorld I

end MmParts

namespace MmState
variable {ω κ ε α : Type}

def world (s : MmState ω) : ω := s.gateway.world

def bare (s : MmState (Noted ω κ)) : MmState ω := ⟨s.hobs, s.table, s.gateway.bare⟩

def noted (s : MmState ω) (calls : List κ) : MmState (Noted ω κ) :=
  ⟨s.hobs, s.table, s.gateway.noted calls⟩

def onGateway (x : Step (Gateway ω) ε α) : Step (MmState ω) ε α :=
  Step.focus MmState.gateway (fun g s => { s with gateway := g }) x

def onRanges (x : Step (SmramTable × ω) ε α) : Step (MmState ω) ε α :=
  Step.focus (fun s : MmState ω => (s.table, s.world))
    (fun t s => { s with table := t.1, gateway := s.gateway.withWorld t.2 }) x

def onHandOff (x : Step (HobList × Machine ω) ε α) : Step (MmState ω) ε α :=
  Step.focus (fun s : MmState ω => (s.hobs, s.gateway.comm.machine))
    (fun t s => { s with
      hobs := t.1
      gateway := { s.gateway with comm := { s.gateway.comm with machine := t.2 } } }) x

/-- Makes an operation. What it answers is left out. -/
def perform (p : MmParts ω) : MmOp → Step (MmState ω) EfiError Unit
  | .openRanges => onRanges (SmramTable.openAll p.access)
  | .closeRanges => onRanges (SmramTable.closeAll p.access)
  | .openWindow => onGateway (Gateway.onWorld p.access.openWindow)
  | .closeWindow => onGateway (Gateway.onWorld p.access.closeWindow)
  | .lockWindow => onGateway (Gateway.onWorld p.access.lockWindow)
  | .loadCore volumes => onHandOff do
    let _ ← Ipl.loadCore p.ipl volumes
  | .communicator op => onGateway (Gateway.onComm (Step.mapError CommError.toEfi do
    let _ ← Communicator.perform p.gateway.comm op))
  | .gateway op => onGateway (Gateway.perform p.gateway op)

def encounters (p : MmParts ω) (op : MmOp) (s : MmState ω) : List (Encounter ω) :=
  (Step.after (perform p.watched op) (s.noted [])).world.calls

theorem onGateway_follows {x : Step (Gateway (Noted ω κ)) ε α} {y : Step (Gateway ω) ε α}
    (h : Follows Gateway.bare x y) : Follows bare (onGateway x) (onGateway y) :=
  Follows.focus (fun _ => rfl) (fun _ _ => rfl) h

theorem onRanges_follows {x : Step (SmramTable × Noted ω κ) ε α} {y : Step (SmramTable × ω) ε α}
    (h : Follows (fun s => (s.1, s.2.world)) x y) : Follows bare (onRanges x) (onRanges y) :=
  Follows.focus (fun _ => rfl) (fun _ _ => rfl) h

theorem perform_follows (p : MmParts ω) (op : MmOp) :
    Follows bare (perform p.watched op) (perform p op) := by
  have haccess : p.watched.access.Mirrors p.access := p.access.watched_mirrors
  cases op with
  | openRanges =>
    exact onRanges_follows
      (SmramTable.transition_follows (SmramAccess.openWindow_follows haccess) _ _)
  | closeRanges =>
    exact onRanges_follows
      (SmramTable.transition_follows (SmramAccess.closeWindow_follows haccess) _ _)
  | openWindow =>
    exact onGateway_follows (Gateway.onWorld_follows (SmramAccess.openWindow_follows haccess))
  | closeWindow =>
    exact onGateway_follows (Gateway.onWorld_follows (SmramAccess.closeWindow_follows haccess))
  | lockWindow =>
    exact onGateway_follows (Gateway.onWorld_follows (SmramAccess.lockWindow_follows haccess))
  | loadCore volumes =>
    exact Follows.focus (fun _ => rfl) (fun _ _ => rfl)
      (Follows.bind (Ipl.loadCore_follows p.ipl.watched_mirrors volumes) fun _ => Follows.pure _)
  | communicator op =>
    exact onGateway_follows (Gateway.onComm_follows (Follows.mapError _ (Follows.bind
      (Communicator.perform_follows p.gateway.watched_mirrors.comm op) fun _ => Follows.pure _)))
  | gateway op =>
    exact onGateway_follows (Gateway.perform_follows p.gateway.watched_mirrors op)

section
variable {I : ω → Prop}

theorem onGateway_keeps {x : Step (Gateway ω) ε α} (hx : Keeps (fun g => I g.world) x) :
    Keeps (fun s => I s.world) (onGateway x) :=
  Keeps.focus hx (fun _ hs => hs) fun _ _ hg => hg

theorem onRanges_keeps {x : Step (SmramTable × ω) ε α} (hx : Keeps (fun s => I s.2) x) :
    Keeps (fun s => I s.world) (onRanges x) :=
  Keeps.focus hx (fun _ hs => hs) fun _ _ ht => ht

theorem perform_keeps {p : MmParts ω} (h : p.KeepsWorld I) (op : MmOp) :
    Keeps (fun s => I s.world) (perform p op) := by
  have haccess : p.access.KeepsWorld I := h.ipl.access
  cases op with
  | openRanges =>
    exact onRanges_keeps (SmramTable.transition_keeps (SmramAccess.openWindow_keeps haccess) _ _)
  | closeRanges =>
    exact onRanges_keeps (SmramTable.transition_keeps (SmramAccess.closeWindow_keeps haccess) _ _)
  | openWindow =>
    exact onGateway_keeps (Gateway.onWorld_keeps (SmramAccess.openWindow_keeps haccess))
  | closeWindow =>
    exact onGateway_keeps (Gateway.onWorld_keeps (SmramAccess.closeWindow_keeps haccess))
  | lockWindow =>
    exact onGateway_keeps (Gateway.onWorld_keeps (SmramAccess.lockWindow_keeps haccess))
  | loadCore volumes =>
    exact Keeps.focus (Keeps.bind (Ipl.loadCore_keeps h.ipl volumes) fun _ => Keeps.pure _)
      (fun _ hs => hs) fun _ _ ht => ht
  | communicator op =>
    refine onGateway_keeps (Keeps.focus (Keeps.mapError (Keeps.bind
      (Communicator.perform_keeps h.gateway.comm op) fun _ => Keeps.pure _)) (fun _ hg => hg) ?_)
    exact fun _ _ hc => hc
  | gateway op => exact onGateway_keeps (Gateway.perform_keeps h.gateway op)

end

end MmState
end PlatformInit
