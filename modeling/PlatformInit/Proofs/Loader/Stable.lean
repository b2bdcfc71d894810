import PlatformInit.Proofs.Loader.Calls

/-!
What the operations after the installation of the context leave alone.

They change the active record in place, they call the components and the processor, and they never
touch the store. `Stable` lists these changes once; a property that survives each of them survives every
operation that neither installs nor moves the context.
-/
set_option autoImplicit false
namespace PlatformInit

open Step (Ends Keeps)

namespace FspComponent
variable {ω : Type} {J : ω → Prop} {gate : CallGate ω}

def KeptBy (gate : CallGate ω) (J : ω → Prop) (request : FspCall) : Prop :=
  ∀ address w, J w → J (gate.call address request w).2

theorem call_keeps {request : FspCall} (h : KeptBy gate J request) (address : UInt64) :
    Keeps J (call gate address request) := by
  intro w hw
  have hnext := h address w hw
  unfold Ends call
  dsimp only
  cases (gate.call address request w).1.status.toExcept <;> exact hnext

theorem callWithUpd_keeps {request : Bytes → FspCall} (h : ∀ upd, KeptBy gate J (request upd))
    (address : UInt64) : Keeps (fun s => J s.2) (callWithUpd gate address request) := by
  intro s hs
  have hnext := h s.1 address s.2 hs
  unfold Ends callWithUpd
  dsimp only
  cases (gate.call address (request s.1) s.2).1.status.toExcept <;> exact hnext

variable (c : FspComponent)

theorem memoryInit_keeps (h : ∀ upd, KeptBy gate J (.memoryInit upd)) :
    Keeps (fun s => J s.2) (c.memoryInit gate) := by
  unfold memoryInit
  cases c.entry? c.header.memoryInit with
  | none => exact Keeps.fail _
  | some address => exact callWithUpd_keeps h address

theorem siliconInit_keeps (h : ∀ upd, KeptBy gate J (.siliconInit upd)) :
    Keeps (fun s => J s.2) (c.siliconInit gate) := by
  unfold siliconInit
  cases c.entry? c.header.siliconInit with
  | none => exact Keeps.fail _
  | some address => exact (callWithUpd_keeps h address).bind fun _ => Keeps.pure _

theorem tempRamExit_keeps (h : KeptBy gate J .tempRamExit) : Keeps J (c.tempRamExit gate) := by
  unfold tempRamExit
  cases c.entry? c.header.tempRamExit with
  | none => exact Keeps.fail _
  | some address => exact (call_keeps h address).bind fun _ => Keeps.pure _

theorem notifyPhase_keeps (phase : NotifyPhase) (h : KeptBy gate J (.notifyPhase phase)) :
    Keeps J (c.notifyPhase gate phase) := by
  unfold notifyPhase
  cases c.entry? c.header.notifyPhase with
  | none => exact Keeps.fail _
  | some address => exact (call_keeps h address).bind fun _ => Keeps.pure _

end FspComponent

namespace Loader
variable {ω ε ε' α : Type}

/-- `I` survives all that an operation does after the installation of the context, as long as the
components are called for what `K` allows only. -/
structure Stable (p : LoaderParts ω) (K : FspCall → Prop) (I : Loader ω → Prop) : Prop where
  stage : ∀ l stage, I l → I { l with stage }
  hobList : ∀ l hobList, I l → I { l with hobList }
  arena : ∀ l arena, I l → I { l with arena }
  update : ∀ l f memory, (∀ c, (f c).signature = c.signature) →
    l.store.update l.memory f = .ok memory → I l → I { l with memory }
  memoryGate : ∀ (l : Loader ω) request, K request →
    FspComponent.KeptBy p.memoryGate (fun world => I { l with world }) request
  siliconGate : ∀ (l : Loader ω) request, K request →
    FspComponent.KeptBy p.siliconGate (fun world => I { l with world }) request
  readWord : ∀ l address, I l → I { l with world := (p.cpu.readWord address l.world).2 }
  enterPayload : ∀ l entry, I l →
    I { l with world := p.cpu.enterPayload entry l.hobList p.config.payloadStackSize l.world }

theorem stable_store (p : LoaderParts ω) (K : FspCall → Prop) (s : ContextStore) :
    Stable p K fun l => l.store = s where
  stage _ _ h := h
  hobList _ _ h := h
  arena _ _ h := h
  update _ _ _ _ _ h := h
  memoryGate _ _ _ _ _ h := h
  siliconGate _ _ _ _ _ h := h
  readWord _ _ h := h
  enterPayload _ _ h := h

theorem stable_calls (p : LoaderParts ω) {K : FspCall → Prop} {P : LoaderCall → Prop}
    (hcall : ∀ address request reply, K request → P (.interface address request reply))
    (hpayload : ∀ entry hobList size, P (.enterPayload entry hobList size)) :
    Stable p.noting K fun l => l.world.All P where
  stage _ _ h := h
  hobList _ _ h := h
  arena _ _ h := h
  update _ _ _ _ _ h := h
  memoryGate _ _ hrequest _ _ h := List.forall_mem_cons.mpr ⟨hcall _ _ _ hrequest, h⟩
  siliconGate _ _ hrequest _ _ h := List.forall_mem_cons.mpr ⟨hcall _ _ _ hrequest, h⟩
  readWord _ _ h := h
  enterPayload _ _ h := List.forall_mem_cons.mpr ⟨hpayload _ _ _, h⟩

variable {I : Loader ω → Prop}

theorem onWorld_keeps {x : Step ω ε α} (hx : ∀ l : Loader ω, Keeps (fun world => I { l with world }) x) :
    Keeps I (onWorld x) := fun l hl => Ends.focus (hx l l.world hl)

variable {p : LoaderParts ω} {K : FspCall → Prop} (hI : Stable p K I)
include hI

theorem onBlock_keeps {component : String} {h : ConfigHandle} {x : Step (Bytes × ω) ε α}
    (hx : ∀ l : Loader ω, Keeps (fun s => I { l with world := s.2 }) x) :
    Keeps I (onBlock component h x) := by
  intro l hl
  unfold Ends onBlock
  cases l.arena.get h with
  | error e => exact hl
  | ok block =>
    have hend := hx l (block, l.world) hl
    dsimp only
    cases hrun : x (block, l.world) with
    | ok a s => exact hI.arena _ _ (hend.of_ok hrun)
    | error e s => exact hI.arena _ _ (hend.of_error hrun)

theorem advance_keeps (current next : Stage) : Keeps I (advance current next) := by
  intro l hl
  refine Ends.get_bind ?_
  split
  · exact hI.stage l next hl
  · exact hl

theorem updateContext_keeps {f : GlobalContext → GlobalContext}
    (hf : ∀ c, (f c).signature = c.signature) : Keeps I (updateContext f) := fun l hl =>
  Ends.get_bind (Ends.valueOrFatal_bind (fun memory h => hI.update l f memory hf h hl) fun _ => hl)

theorem insertBlock_keeps (block : Bytes) :
    Keeps I (insertBlock block : Step (Loader ω) ε ConfigHandle) := fun l hl => hI.arena l _ hl

theorem memoryInit_keeps (h : ∀ upd, K (.memoryInit upd)) : Keeps I (memoryInit p) := by
  refine (advance_keeps hI _ _).bind fun _ => (Keeps.valueOrFatal _ _).bind fun upd => ?_
  refine (insertBlock_keeps hI upd).bind fun block => ?_
  have hrecord : Keeps I (updateContext fun c => { c with memoryUpd := some block }) :=
    updateContext_keeps hI fun _ => rfl
  have hcall : Keeps I (onBlock "FSP-M" block (p.memoryComponent.memoryInit p.memoryGate)) :=
    onBlock_keeps hI fun l => p.memoryComponent.memoryInit_keeps fun upd => hI.memoryGate l _ (h upd)
  refine hrecord.bind fun _ => (Keeps.orFatal hcall).bind fun hobList => ?_
  exact (Keeps.modify fun l hl => hI.hobList l hobList hl).bind fun _ => Keeps.pure _

theorem tempRamExit_keeps (h : K .tempRamExit) : Keeps I (tempRamExit p) := by
  refine Keeps.get_bind fun l => Keeps.ite ((advance_keeps hI _ _).bind fun _ => ?_) (Keeps.fatal _)
  exact Keeps.orFatal (onWorld_keeps fun l =>
    p.memoryComponent.tempRamExit_keeps (hI.memoryGate l _ h))

theorem siliconInit_keeps (h : ∀ upd, K (.siliconInit upd)) : Keeps I (siliconInit p) := by
  refine (advance_keeps hI _ _).bind fun _ => (Keeps.valueOrFatal _ _).bind fun _ => ?_
  refine (insertBlock_keeps hI _).bind fun block => ?_
  have hrecord : Keeps I (updateContext fun c => { c with siliconUpd := some block }) :=
    updateContext_keeps hI fun _ => rfl
  exact hrecord.bind fun _ => Keeps.orFatal (onBlock_keeps hI fun l =>
    p.siliconComponent.siliconInit_keeps fun upd => hI.siliconGate l _ (h upd))

theorem notify_keeps (index : Nat) (phase : NotifyPhase) (h : K (.notifyPhase phase)) :
    Keeps I (notify p index phase) :=
  (advance_keeps hI _ _).bind fun _ => Keeps.orFatal (onWorld_keeps fun l =>
    p.siliconComponent.notifyPhase_keeps phase (hI.siliconGate l _ h))

theorem notifyPhases_keeps (h : ∀ phase, K (.notifyPhase phase)) : Keeps I (notifyPhases p) :=
  (notify_keeps hI 0 _ (h _)).bind fun _ => (notify_keeps hI 1 _ (h _)).bind fun _ =>
    notify_keeps hI 2 _ (h _)

theorem readWord_keeps (address : UInt64) :
    Keeps I (readWord p address : Step (Loader ω) ε UInt32) := fun l hl => hI.readWord l address hl

theorem handOff_keeps : Keeps I (handOff p) := by
  refine (advance_keeps hI _ _).bind fun _ => (Keeps.ofFallible _).bind fun slot => ?_
  refine (readWord_keeps hI slot).bind fun table => ?_
  refine (readWord_keeps hI table.toUInt64).bind fun entry => ?_
  exact Keeps.ite (Keeps.fatal _) fun l hl => hI.enterPayload l _ hl

end Loader

def LoaderOp.buildsContext : LoaderOp → Bool
  | installTemporary .. | relocate _ => true
  | _ => false

def LoaderOp.Requests : LoaderOp → FspCall → Prop
  | memoryInit, .memoryInit _ => True
  | tempRamExit, .tempRamExit => True
  | siliconInit, .siliconInit _ => True
  | notifyPhases, .notifyPhase _ => True
  | continueInMemory, .tempRamExit => True
  | continueInMemory, .siliconInit _ => True
  | continueInMemory, .notifyPhase _ => True
  | _, _ => False

/-- What survives the changes listed by `Stable` survives the operations that build no context. -/
theorem Loader.perform_keeps {ω : Type} {p : LoaderParts ω} {I : Loader ω → Prop} {op : LoaderOp}
    (hI : Stable p op.Requests I) (hop : op.buildsContext = false) : Keeps I (perform p op) := by
  cases op with
  | installTemporary context tables stackTop => cases hop
  | relocate hobs => cases hop
  | memoryInit => exact (memoryInit_keeps hI fun _ => trivial).bind fun _ => Keeps.pure _
  | tempRamExit => exact tempRamExit_keeps hI trivial
  | siliconInit => exact siliconInit_keeps hI fun _ => trivial
  | notifyPhases => exact notifyPhases_keeps hI fun _ => trivial
  | handOff => exact handOff_keeps hI
  | continueInMemory =>
    exact (tempRamExit_keeps hI trivial).bind fun _ => (siliconInit_keeps hI fun _ => trivial).bind
      fun _ => (notifyPhases_keeps hI fun _ => trivial).bind fun _ => handOff_keeps hI

end PlatformInit
