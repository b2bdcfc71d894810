import PlatformInit.Cpu.Exception
import PlatformInit.Loader.Stage
import PlatformInit.Proofs.Noted
import PlatformInit.Proofs.Simulation

/-!
The operations of the boot loader, and the calls that it makes of the components and the processor.

`LoaderParts.noting` lets any gates and any processor do what they do and notes each call in the
world. `Mirrors` says of two sets of parts that they do the same on worlds that `f` relates, and so do
all operations then. Notes change nothing else (`noting_mirrors`), and what was noted before does not
matter (`noting_mirrors_behind`).
-/
set_option autoImplicit false
namespace PlatformInit

open Step (Ends Follows)

/-- A call of a component's interface with its reply, or of the processor. -/
inductive LoaderCall where
  | interface (address : UInt64) (request : FspCall) (reply : FspReply)
  | loadTables (memory : Memory) (gdt idt : TableRegister)
  | enterPayload (entry hobList : UInt64) (stackSize : UInt32)

inductive LoaderOp where
  | installTemporary (context : UInt64) (tables : StageTables) (stackTop : UInt32)
  | memoryInit
  | relocate (hobs : HobList)
  | tempRamExit
  | siliconInit
  | notifyPhases
  | handOff
  | continueInMemory

section
variable {ω : Type}

def CallGate.noting (g : CallGate ω) : CallGate (Noted ω LoaderCall) where
  call address request n :=
    let (reply, w) := g.call address request n.world
    (reply, ⟨w, .interface address request reply :: n.calls⟩)

def StageCpu.noting (cpu : StageCpu ω) : StageCpu (Noted ω LoaderCall) where
  loadTables memory gdt idt n :=
    ⟨cpu.loadTables memory gdt idt n.world, .loadTables memory gdt idt :: n.calls⟩
  stub n := cpu.stub n.world
  codeSelector n := cpu.codeSelector n.world
  readWord address n :=
    let (value, w) := cpu.readWord address n.world
    (value, ⟨w, n.calls⟩)
  enterPayload entry hobList stackSize n :=
    ⟨cpu.enterPayload entry hobList stackSize n.world, .enterPayload entry hobList stackSize :: n.calls⟩

def LoaderParts.noting (p : LoaderParts ω) : LoaderParts (Noted ω LoaderCall) where
  config := p.config
  memoryComponent := p.memoryComponent
  memoryGate := p.memoryGate.noting
  siliconComponent := p.siliconComponent
  siliconGate := p.siliconGate.noting
  cpu := p.cpu.noting

end

namespace Noted
variable {ω κ : Type}

def behind (older : List κ) (n : Noted ω κ) : Noted ω κ := ⟨n.world, n.calls ++ older⟩

end Noted

namespace Loader
variable {ω ω' ε α : Type}

def mapWorld (f : ω' → ω) (l : Loader ω') : Loader ω := { l with world := f l.world }

def noted (l : Loader ω) (calls : List LoaderCall) : Loader (Noted ω LoaderCall) :=
  { l with world := ⟨l.world, calls⟩ }

/-- The calls that a step makes from `l`, oldest first. -/
def trace (x : Step (Loader (Noted ω LoaderCall)) ε α) (l : Loader ω) : List LoaderCall :=
  (Step.after x (l.noted [])).world.calls.reverse

def perform (p : LoaderParts ω) : LoaderOp → Step (Loader ω) Empty Unit
  | .installTemporary context tables stackTop => installTemporary p context tables stackTop
  | .memoryInit => do
    let _ ← memoryInit p
  | .relocate hobs => do
    let _ ← relocate p hobs
  | .tempRamExit => tempRamExit p
  | .siliconInit => siliconInit p
  | .notifyPhases => notifyPhases p
  | .handOff => handOff p
  | .continueInMemory => continueInMemory p

/-- Operations one after another; none follows one that stops the machine. -/
def run (p : LoaderParts ω) (ops : List LoaderOp) : Step (Loader ω) Empty Unit :=
  ops.forM (perform p)

theorem advance_cases (current next : Stage) (l : Loader ω) :
    l.stage = current ∧ advance current next l = .ok () { l with stage := next } ∨
      ∃ e, advance current next l = .error e l := by
  change _ ∧ (if l.stage = current then set _ else Step.fatal _ : Step (Loader ω) Empty Unit) l = _ ∨
    ∃ e, (if l.stage = current then set _ else Step.fatal _ : Step (Loader ω) Empty Unit) l = _
  by_cases hstage : l.stage = current
  · rw [if_pos hstage]
    exact .inl ⟨hstage, rfl⟩
  · rw [if_neg hstage]
    exact .inr ⟨_, rfl⟩

end Loader

/-! ### Parts that do the same -/

section
variable {ω ω' : Type}

def CallGate.Mirrors (f : ω' → ω) (g' : CallGate ω') (g : CallGate ω) : Prop :=
  ∀ address request w,
    g.call address request (f w) =
      ((g'.call address request w).1, f (g'.call address request w).2)

structure StageCpu.Mirrors (f : ω' → ω) (cpu' : StageCpu ω') (cpu : StageCpu ω) : Prop where
  loadTables : ∀ memory gdt idt w,
    cpu.loadTables memory gdt idt (f w) = f (cpu'.loadTables memory gdt idt w)
  stub : ∀ w, cpu.stub (f w) = cpu'.stub w
  codeSelector : ∀ w, cpu.codeSelector (f w) = cpu'.codeSelector w
  readWord : ∀ address w,
    cpu.readWord address (f w) = ((cpu'.readWord address w).1, f (cpu'.readWord address w).2)
  enterPayload : ∀ entry hobList stackSize w,
    cpu.enterPayload entry hobList stackSize (f w) = f (cpu'.enterPayload entry hobList stackSize w)

structure LoaderParts.Mirrors (f : ω' → ω) (q : LoaderParts ω') (p : LoaderParts ω) : Prop where
  config : q.config = p.config
  memoryComponent : q.memoryComponent = p.memoryComponent
  memoryGate : q.memoryGate.Mirrors f p.memoryGate
  siliconComponent : q.siliconComponent = p.siliconComponent
  siliconGate : q.siliconGate.Mirrors f p.siliconGate
  cpu : q.cpu.Mirrors f p.cpu

theorem LoaderParts.noting_mirrors (p : LoaderParts ω) : p.noting.Mirrors Noted.world p where
  config := rfl
  memoryComponent := rfl
  memoryGate _ _ _ := rfl
  siliconComponent := rfl
  siliconGate _ _ _ := rfl
  cpu := ⟨fun _ _ _ _ => rfl, fun _ => rfl, fun _ => rfl, fun _ _ => rfl, fun _ _ _ _ => rfl⟩

theorem LoaderParts.noting_mirrors_behind (p : LoaderParts ω) (older : List LoaderCall) :
    p.noting.Mirrors (Noted.behind older) p.noting where
  config := rfl
  memoryComponent := rfl
  memoryGate _ _ _ := rfl
  siliconComponent := rfl
  siliconGate _ _ _ := rfl
  cpu := ⟨fun _ _ _ _ => rfl, fun _ => rfl, fun _ => rfl, fun _ _ => rfl, fun _ _ _ _ => rfl⟩

end

namespace FspComponent
variable {ω ω' : Type} {f : ω' → ω} (c : FspComponent) {g' : CallGate ω'} {g : CallGate ω}
  (h : g'.Mirrors f g)
include h

theorem call_follows (address : UInt64) (request : FspCall) :
    Follows f (call g' address request) (call g address request) := by
  intro w
  have hreply := h address request w
  cases hcall : g'.call address request w with
  | mk reply after =>
    rw [hcall] at hreply
    unfold FspComponent.call
    rw [hreply, hcall]
    dsimp only
    cases reply.status.toExcept <;> rfl

theorem callWithUpd_follows (address : UInt64) (request : Bytes → FspCall) :
    Follows (Prod.map id f) (callWithUpd g' address request) (callWithUpd g address request) := by
  intro s
  have hreply : g.call address (request (Prod.map id f s).1) (Prod.map id f s).2 = _ :=
    h address (request s.1) s.2
  cases hcall : g'.call address (request s.1) s.2 with
  | mk reply after =>
    rw [hcall] at hreply
    unfold callWithUpd
    rw [hreply, hcall]
    dsimp only
    cases reply.status.toExcept <;> rfl

theorem memoryInit_follows : Follows (Prod.map id f) (c.memoryInit g') (c.memoryInit g) := by
  unfold memoryInit
  cases c.entry? c.header.memoryInit with
  | none => exact Follows.fail _
  | some address => exact callWithUpd_follows h address _

theorem siliconInit_follows : Follows (Prod.map id f) (c.siliconInit g') (c.siliconInit g) := by
  unfold siliconInit
  cases c.entry? c.header.siliconInit with
  | none => exact Follows.fail _
  | some address => exact Follows.bind (callWithUpd_follows h address _) fun _ => Follows.pure _

theorem tempRamExit_follows : Follows f (c.tempRamExit g') (c.tempRamExit g) := by
  unfold tempRamExit
  cases c.entry? c.header.tempRamExit with
  | none => exact Follows.fail _
  | some address => exact Follows.bind (call_follows h address _) fun _ => Follows.pure _

theorem notifyPhase_follows (phase : NotifyPhase) :
    Follows f (c.notifyPhase g' phase) (c.notifyPhase g phase) := by
  unfold notifyPhase
  cases c.entry? c.header.notifyPhase with
  | none => exact Follows.fail _
  | some address => exact Follows.bind (call_follows h address _) fun _ => Follows.pure _

end FspComponent

namespace Loader
variable {ω ω' ε α : Type} {f : ω' → ω}

theorem onWorld_follows {x : Step ω' ε α} {y : Step ω ε α} (h : Follows f x y) :
    Follows (mapWorld f) (onWorld x) (onWorld y) := Follows.focus (fun _ => rfl) (fun _ _ => rfl) h

theorem onBlock_follows {component : String} {block : ConfigHandle} {x : Step (Bytes × ω') ε α}
    {y : Step (Bytes × ω) ε α} (hxy : Follows (Prod.map id f) x y) :
    Follows (mapWorld f) (onBlock component block x) (onBlock component block y) := by
  intro l
  have harena : (mapWorld f l).arena.get block = l.arena.get block := rfl
  unfold onBlock
  rw [harena]
  cases l.arena.get block with
  | error e => rfl
  | ok upd =>
    have hblock : y (upd, (mapWorld f l).world) = _ := hxy (upd, l.world)
    dsimp only
    rw [hblock]
    cases x (upd, l.world) <;> rfl

theorem advance_follows (current next : Stage) :
    Follows (mapWorld f) (advance current next) (advance current next) :=
  Follows.get_bind fun _ => Follows.ite (Follows.set rfl) (Follows.fatal _)

theorem updateContext_follows (g : GlobalContext → GlobalContext) :
    Follows (mapWorld f) (updateContext g) (updateContext g) :=
  Follows.get_bind fun _ => Follows.bind (Follows.valueOrFatal _ _) fun _ => Follows.set rfl

variable {q : LoaderParts ω'} {p : LoaderParts ω} (h : q.Mirrors f p)
include h

theorem loadTables_follows (tables : StageTables) :
    Follows (mapWorld f) (loadTables q tables : Step _ ε Unit) (loadTables p tables) := by
  refine Follows.modify fun l => ?_
  unfold StageTables.load
  exact congrArg (fun world => { mapWorld f l with world }) (h.cpu.loadTables _ _ _ _).symm

theorem prepare_eq (tables : StageTables) (context : UInt64) (l : Loader ω') (m : Memory) :
    tables.prepare context p.cpu (mapWorld f l).world m = tables.prepare context q.cpu l.world m := by
  unfold StageTables.prepare
  change (m.write _ _).write _ (Idt.populated context (p.cpu.codeSelector (f l.world))
    (p.cpu.stub (f l.world))).toBytes = _
  rw [h.cpu.codeSelector, h.cpu.stub]

theorem installTemporary_follows (context : UInt64) (tables : StageTables) (stackTop : UInt32) :
    Follows (mapWorld f) (installTemporary q context tables stackTop)
      (installTemporary p context tables stackTop) := by
  unfold installTemporary
  rw [h.config]
  refine Follows.get_bind fun l => Follows.ite (Follows.fatal _) ?_
  refine Follows.bind (Follows.ofFallible _) fun initial => ?_
  rw [prepare_eq h]
  refine Follows.bind (Follows.set rfl) fun _ => Follows.bind (loadTables_follows h tables) fun _ => ?_
  exact Follows.bind (Follows.valueOrFatal _ _) fun store => Follows.modify fun _ => rfl

theorem memoryInit_follows : Follows (mapWorld f) (memoryInit q) (memoryInit p) := by
  unfold memoryInit
  rw [h.memoryComponent]
  refine Follows.bind (advance_follows _ _) fun _ => Follows.bind (Follows.valueOrFatal _ _) fun upd => ?_
  refine Follows.bind (fun _ => rfl) fun block => Follows.bind (updateContext_follows _) fun _ => ?_
  refine Follows.bind (Follows.orFatal _ (onBlock_follows ?_)) fun hobList => ?_
  · exact p.memoryComponent.memoryInit_follows h.memoryGate
  · exact Follows.bind (Follows.modify fun _ => rfl) fun _ => Follows.pure _

theorem moveContext_follows (hobs : HobList) :
    Follows (mapWorld f) (moveContext q hobs) (moveContext p hobs) := by
  unfold moveContext
  rw [h.config]
  refine Follows.get_bind fun l => Follows.ite (Follows.fatal _) ?_
  refine Follows.bind (Follows.ofFallible _) fun layout => ?_
  dsimp only
  rw [prepare_eq h]
  refine Follows.bind (Follows.set rfl) fun _ => Follows.ite (Follows.fatal _) ?_
  refine Follows.bind (Follows.valueOrFatal _ _) fun moved => ?_
  exact Follows.bind (Follows.set rfl) fun _ => Follows.pure _

theorem relocate_follows (hobs : HobList) :
    Follows (mapWorld f) (relocate q hobs) (relocate p hobs) :=
  Follows.bind (moveContext_follows h hobs) fun _ =>
    Follows.bind (loadTables_follows h _) fun _ => Follows.pure _

theorem tempRamExit_follows : Follows (mapWorld f) (tempRamExit q) (tempRamExit p) := by
  unfold tempRamExit
  rw [h.memoryComponent]
  refine Follows.get_bind fun l => Follows.ite ?_ (Follows.fatal _)
  refine Follows.bind (advance_follows _ _) fun _ => Follows.orFatal _ (onWorld_follows ?_)
  exact p.memoryComponent.tempRamExit_follows h.memoryGate

theorem siliconInit_follows : Follows (mapWorld f) (siliconInit q) (siliconInit p) := by
  unfold siliconInit
  rw [h.siliconComponent]
  refine Follows.bind (advance_follows _ _) fun _ => Follows.bind (Follows.valueOrFatal _ _) fun _ => ?_
  refine Follows.bind (fun _ => rfl) fun block => Follows.bind (updateContext_follows _) fun _ => ?_
  exact Follows.orFatal _ (onBlock_follows (p.siliconComponent.siliconInit_follows h.siliconGate))

theorem notify_follows (index : Nat) (phase : NotifyPhase) :
    Follows (mapWorld f) (notify q index phase) (notify p index phase) := by
  unfold notify
  rw [h.siliconComponent]
  refine Follows.bind (advance_follows _ _) fun _ => Follows.orFatal _ (onWorld_follows ?_)
  exact p.siliconComponent.notifyPhase_follows h.siliconGate phase

theorem notifyPhases_follows : Follows (mapWorld f) (notifyPhases q) (notifyPhases p) :=
  Follows.bind (notify_follows h _ _) fun _ => Follows.bind (notify_follows h _ _) fun _ =>
    notify_follows h _ _

theorem readWord_follows (address : UInt64) :
    Follows (mapWorld f) (readWord q address : Step _ ε UInt32) (readWord p address) := by
  intro l
  unfold readWord
  have hworld : p.cpu.readWord address (mapWorld f l).world = _ := h.cpu.readWord address l.world
  rw [hworld]
  rfl

theorem handOff_follows : Follows (mapWorld f) (handOff q) (handOff p) := by
  unfold handOff
  rw [h.config]
  refine Follows.bind (advance_follows _ _) fun _ => Follows.bind (Follows.ofFallible _) fun slot => ?_
  refine Follows.bind (readWord_follows h slot) fun table => ?_
  refine Follows.bind (readWord_follows h table.toUInt64) fun entry => ?_
  refine Follows.ite (Follows.fatal _) (Follows.get_bind fun l => Follows.modify fun t => ?_)
  exact congrArg (fun world => { mapWorld f t with world }) (h.cpu.enterPayload _ _ _ _).symm

theorem continueInMemory_follows : Follows (mapWorld f) (continueInMemory q) (continueInMemory p) :=
  Follows.bind (tempRamExit_follows h) fun _ => Follows.bind (siliconInit_follows h) fun _ =>
    Follows.bind (notifyPhases_follows h) fun _ => handOff_follows h

theorem perform_follows (op : LoaderOp) : Follows (mapWorld f) (perform q op) (perform p op) := by
  cases op with
  | installTemporary context tables stackTop => exact installTemporary_follows h context tables stackTop
  | memoryInit => exact Follows.bind (memoryInit_follows h) fun _ => Follows.pure _
  | relocate hobs => exact Follows.bind (relocate_follows h hobs) fun _ => Follows.pure _
  | tempRamExit => exact tempRamExit_follows h
  | siliconInit => exact siliconInit_follows h
  | notifyPhases => exact notifyPhases_follows h
  | handOff => exact handOff_follows h
  | continueInMemory => exact continueInMemory_follows h

theorem run_follows (ops : List LoaderOp) : Follows (mapWorld f) (run q ops) (run p ops) :=
  Follows.forM (perform_follows h) ops

end Loader

/-! ### The calls of a run -/

namespace Loader
variable {ω ε α : Type} {p : LoaderParts ω} {l : Loader ω} {call : LoaderCall}

theorem mem_trace {x : Step (Loader (Noted ω LoaderCall)) ε α} :
    call ∈ trace x l ↔ call ∈ (Step.after x (l.noted [])).world.calls := List.mem_reverse

theorem exists_perform_of_mem_trace_run {ops : List LoaderOp}
    (hcall : call ∈ trace (run p.noting ops) l) :
    ∃ before op later l₁, ops = before ++ op :: later ∧ run p before l = .ok () l₁ ∧
      call ∈ trace (perform p.noting op) l₁ := by
  induction ops generalizing l with
  | nil => cases hcall
  | cons op ops ih =>
    have hbare := perform_follows p.noting_mirrors op (l.noted [])
    rw [mem_trace] at hcall
    change call ∈ (Step.after (perform p.noting op >>= fun _ => run p.noting ops) _).world.calls at hcall
    cases hop : perform p.noting op (l.noted []) with
    | ok _ t =>
      rw [hop] at hbare
      have holder : Step.after (run p.noting ops) t = mapWorld (Noted.behind t.world.calls)
          (Step.after (run p.noting ops) ((mapWorld Noted.world t).noted [])) :=
        (run_follows (p.noting_mirrors_behind t.world.calls) ops).after
          ((mapWorld Noted.world t).noted [])
      rw [Step.after_bind_of_ok hop, holder] at hcall
      rcases List.mem_append.mp hcall with hlater | hhere
      · obtain ⟨before, op', later, l₁, rfl, hbefore, hmem⟩ := ih (mem_trace.mpr hlater)
        exact ⟨op :: before, op', later, l₁, rfl, (Step.bind_of_ok hbare).trans hbefore, hmem⟩
      · refine ⟨[], op, ops, l, rfl, rfl, mem_trace.mpr ?_⟩
        rwa [Step.after_of_ok hop]
    | error e t =>
      rw [Step.after_bind_of_error hop] at hcall
      refine ⟨[], op, ops, l, rfl, rfl, mem_trace.mpr ?_⟩
      rwa [Step.after_of_error hop]

def loading (memory : Memory) (tables : StageTables) : LoaderCall :=
  .loadTables memory ⟨tables.gdt, Gdt.limit⟩ ⟨tables.idt + Idt.gateOffset, Idt.limit⟩

def temporaryMemory (p : LoaderParts ω) (l : Loader ω) (context : UInt64) (tables : StageTables)
    (initial : GlobalContext) : Memory :=
  tables.prepare context p.cpu l.world
    (GlobalContext.store l.memory context { initial with printMask := p.config.printMask })

theorem installTemporary_calls {context : UInt64} {tables : StageTables} {stackTop : UInt32}
    (hcall : call ∈ trace (installTemporary p.noting context tables stackTop) l) :
    ∃ initial, GlobalContext.temporary stackTop p.config.temporaryPoolSize = .ok initial ∧
      call = loading (temporaryMemory p l context tables initial) tables := by
  have hend : Ends (installTemporary p.noting context tables stackTop) (l.noted []) fun _ t =>
      ∀ call ∈ t.world.calls, ∃ initial,
        GlobalContext.temporary stackTop p.config.temporaryPoolSize = .ok initial ∧
          call = loading (temporaryMemory p l context tables initial) tables := by
    refine Ends.get_bind ?_
    split
    · exact nofun
    · refine Ends.ofFallible_bind (fun initial hinitial => ?_) fun _ _ => nofun
      have hone : ∀ call ∈ [loading (temporaryMemory p l context tables initial) tables], ∃ initial,
          GlobalContext.temporary stackTop p.config.temporaryPoolSize = .ok initial ∧
            call = loading (temporaryMemory p l context tables initial) tables :=
        List.forall_mem_singleton.mpr ⟨initial, Fallible.ofHalting_eq_ok.mp hinitial, rfl⟩
      exact Ends.bind_of_ok rfl (Ends.bind_of_ok rfl
        (Ends.valueOrFatal_bind (fun store _ => hone) fun _ => hone))
  exact Ends.iff_answer.mp hend call (mem_trace.mp hcall)

theorem moveContext_calls (p : LoaderParts ω) (hobs : HobList) (t : Loader (Noted ω LoaderCall)) :
    Ends (moveContext p.noting hobs) t fun _ t' => t'.world.calls = t.world.calls := by
  refine Ends.get_bind ?_
  split
  · exact rfl
  · refine Ends.ofFallible_bind (fun layout _ => Ends.bind_of_ok rfl ?_) fun _ _ => rfl
    split
    · exact rfl
    · exact Ends.valueOrFatal_bind (fun moved _ => rfl) fun _ => rfl

theorem trace_perform_relocate {p : LoaderParts (Noted ω LoaderCall)} (hobs : HobList) :
    trace (perform p (.relocate hobs)) l = trace (relocate p hobs) l := by
  have hafter : Step.after (perform p (.relocate hobs)) (l.noted []) =
      Step.after (relocate p hobs) (l.noted []) := Step.after_bind_pure _ (fun _ => ()) _
  rw [trace, trace, hafter]

theorem trace_relocate {hobs : HobList} {layout : PoolLayout} {l₁ : Loader ω}
    (h : moveContext p hobs l = .ok layout l₁) :
    trace (relocate p.noting hobs) l = [loading l₁.memory ⟨layout.gdt, layout.idt⟩] := by
  have hbare := moveContext_follows p.noting_mirrors hobs (l.noted [])
  change moveContext p hobs l = _ at hbare
  rw [h] at hbare
  unfold trace relocate
  cases hmove : moveContext p.noting hobs (l.noted []) with
  | ok layout' t =>
    rw [hmove] at hbare
    cases hbare
    have hnone : t.world.calls = [] := (moveContext_calls p hobs (l.noted [])).of_ok hmove
    rw [Step.after_bind_of_ok hmove]
    change (loading t.memory _ :: t.world.calls).reverse = _
    rw [hnone]
    rfl
  | error e t =>
    rw [hmove] at hbare
    cases hbare

theorem relocate_calls {hobs : HobList} (hcall : call ∈ trace (relocate p.noting hobs) l) :
    ∃ layout l₁, moveContext p hobs l = .ok layout l₁ ∧
      call = loading l₁.memory ⟨layout.gdt, layout.idt⟩ := by
  have hbare := moveContext_follows p.noting_mirrors hobs (l.noted [])
  cases hmove : moveContext p.noting hobs (l.noted []) with
  | ok layout t =>
    rw [hmove] at hbare
    have hmoved : moveContext p hobs l = .ok layout (mapWorld Noted.world t) := hbare
    rw [trace_relocate hmoved] at hcall
    exact ⟨layout, _, hmoved, List.mem_singleton.mp hcall⟩
  | error e t =>
    have hnone : t.world.calls = [] := (moveContext_calls p hobs (l.noted [])).of_error hmove
    unfold relocate at hcall
    rw [mem_trace, Step.after_bind_of_error hmove, hnone] at hcall
    cases hcall

end Loader

/-! ### A boot that succeeds -/

def blockComponent (magic : UInt64) : FspComponent where
  header := {
    signature := FspHeader.magic, headerLength := 0x48, specVersion := 0x20, headerRevision := 3
    imageRevision := 0, imageId := 0, imageSize := 0x40, imageBase := 0xFFF90000
    imageAttribute := 0, componentAttribute := 0, configOffset := 0, configSize := 0x40
    tempRamInit := 0, notifyPhase := 0x100, memoryInit := 0x200, tempRamExit := 0x300
    siliconInit := 0x400 }
  image := le64 magic ++ List.replicate 0x20 0 ++ le32 0xFE000000 ++ List.replicate 0x14 0

def acceptingGate : CallGate Unit := ⟨fun _ request w => (⟨Status.success, 0x7F000000, request.upd⟩, w)⟩

def acceptingParts : LoaderParts Unit where
  config := {}
  memoryComponent := blockComponent UpdHeader.memoryMagic
  memoryGate := acceptingGate
  siliconComponent := blockComponent UpdHeader.siliconMagic
  siliconGate := acceptingGate
  cpu := {
    loadTables _ _ _ w := w
    stub _ vector := 0xFFF90000 + Exception.stubSize * vector.toUInt64
    codeSelector _ := Gdt.code64Selector
    readWord _ w := (0xFFF00000, w)
    enterPayload _ _ _ w := w }

def reservedHobs : HobList :=
  [.resource ⟨Guid.reservedMemory, ResourceDescriptor.reserved, ResourceDescriptor.testedMemory,
    0x7EC00000, 0x400000⟩]

def bootOps : List LoaderOp :=
  [.installTemporary 0x20001000 ⟨0x20002000, 0x20003000⟩ 0x20010000, .memoryInit,
    .relocate reservedHobs, .continueInMemory]

end PlatformInit
