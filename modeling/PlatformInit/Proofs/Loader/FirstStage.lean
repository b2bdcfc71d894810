import PlatformInit.Proofs.Loader.Stable

/-!
What a boot finds when it initializes memory.

No operation comes back to the first stage, and none adds a block in it. So the arena of a boot is empty
until the first stage is over.
-/
set_option autoImplicit false
namespace PlatformInit.Loader

open Step (Ends Keeps)

variable {ω ε α : Type} {arena : ConfigArena} (p : LoaderParts ω)

def Begun (l : Loader ω) : Prop := l.stage ≠ .preMemory

/-- The arena is the given one as long as the first stage lasts. -/
def Waiting (arena : ConfigArena) (l : Loader ω) : Prop := l.stage = .preMemory → l.arena = arena

theorem onWorld_begun (x : Step ω ε α) : Keeps Begun (onWorld x) :=
  onWorld_keeps fun _ _ hl => Ends.iff_answer.mpr hl

theorem onBlock_begun (component : String) (h : ConfigHandle) (x : Step (Bytes × ω) ε α) :
    Keeps Begun (onBlock component h x) := by
  intro l hl
  unfold Ends onBlock
  cases l.arena.get h with
  | error e => exact hl
  | ok block =>
    dsimp only
    cases x (block, l.world) <;> exact hl

theorem addBlock_begun (block : Bytes) (f : ConfigHandle → GlobalContext → GlobalContext)
    {g : ConfigHandle → Step (Loader ω) Empty α} (hg : ∀ h, Keeps Begun (g h)) :
    Keeps Begun (insertBlock block >>= fun h => updateContext (f h) >>= fun _ => g h) := by
  refine Keeps.bind (fun _ hl => hl) fun h => Keeps.bind (fun l hl => ?_) fun _ => hg h
  exact Ends.get_bind (Ends.valueOrFatal_bind (fun _ _ => hl) fun _ => hl)

theorem advance_waiting {current next : Stage} {f : Unit → Step (Loader ω) Empty α}
    (hnext : next ≠ .preMemory) (hf : Keeps Begun (f ())) :
    Keeps (Waiting arena) (advance current next >>= f) := by
  intro l hl
  rcases advance_cases current next l with ⟨-, hmove⟩ | ⟨e, hstop⟩
  · exact (Ends.bind_of_ok hmove (hf _ hnext)).mono fun _ _ hbegun hfirst => absurd hfirst hbegun
  · exact Ends.bind_of_error hstop hl

theorem loadTables_waiting (tables : StageTables) :
    Keeps (Waiting arena) (loadTables p tables : Step (Loader ω) ε Unit) := Keeps.modify fun _ hl => hl

theorem installTemporary_waiting (context : UInt64) (tables : StageTables) (stackTop : UInt32) :
    Keeps (Waiting arena) (installTemporary p context tables stackTop) := by
  intro l hl
  refine Ends.get_bind ?_
  split
  · exact hl
  · refine Ends.ofFallible_bind (fun initial _ => Ends.bind_of_ok rfl ?_) fun _ _ => hl
    exact Ends.bind_of_ok rfl (Ends.valueOrFatal_bind (fun _ _ => hl) fun _ => hl)

theorem memoryInit_waiting : Keeps (Waiting arena) (memoryInit p) := by
  refine advance_waiting nofun ((Keeps.valueOrFatal _ _).bind fun _ => addBlock_begun _ _ fun h => ?_)
  have hcall : Keeps Begun (onBlock "FSP-M" h (p.memoryComponent.memoryInit p.memoryGate)) :=
    onBlock_begun _ h _
  refine (Keeps.orFatal hcall).bind fun hobList => ?_
  have hlist : Keeps Begun (modify fun l => { l with hobList } : Step (Loader ω) Empty PUnit) :=
    Keeps.modify fun _ hl => hl
  exact hlist.bind fun _ => Keeps.pure _

theorem relocate_waiting (hobs : HobList) : Keeps (Waiting arena) (relocate p hobs) := by
  have hmove : Keeps (Waiting arena) (moveContext p hobs) := by
    intro l hl
    refine Ends.get_bind ?_
    split
    · exact hl
    · refine Ends.ofFallible_bind (fun layout _ => Ends.bind_of_ok rfl ?_) fun _ _ => hl
      split
      · exact hl
      · exact Ends.valueOrFatal_bind (fun _ _ => hl) fun _ => hl
  exact hmove.bind fun _ => (loadTables_waiting p _).bind fun _ => Keeps.pure _

theorem tempRamExit_waiting : Keeps (Waiting arena) (tempRamExit p) :=
  Keeps.get_bind fun _ => Keeps.ite (advance_waiting nofun (Keeps.orFatal (onWorld_begun _)))
    (Keeps.fatal _)

theorem siliconInit_waiting : Keeps (Waiting arena) (siliconInit p) :=
  advance_waiting nofun ((Keeps.valueOrFatal _ _).bind fun _ =>
    addBlock_begun _ _ fun h => Keeps.orFatal (onBlock_begun _ h _))

theorem notifyPhases_waiting : Keeps (Waiting arena) (notifyPhases p) := by
  have hone (index : Nat) (phase : NotifyPhase) : Keeps (Waiting arena) (notify p index phase) :=
    advance_waiting nofun (Keeps.orFatal (onWorld_begun _))
  exact (hone _ _).bind fun _ => (hone _ _).bind fun _ => hone _ _

theorem handOff_waiting : Keeps (Waiting arena) (handOff p) := by
  have hread (address : UInt64) : Keeps Begun (readWord p address : Step _ Empty UInt32) := fun _ hl => hl
  refine advance_waiting nofun ((Keeps.ofFallible _).bind fun _ => (hread _).bind fun _ => ?_)
  exact (hread _).bind fun _ => Keeps.ite (Keeps.fatal _) (Keeps.get_bind fun _ => fun _ hl => hl)

theorem perform_waiting (op : LoaderOp) : Keeps (Waiting arena) (perform p op) := by
  cases op with
  | installTemporary context tables stackTop => exact installTemporary_waiting p context tables stackTop
  | memoryInit => exact (memoryInit_waiting p).bind fun _ => Keeps.pure _
  | relocate hobs => exact (relocate_waiting p hobs).bind fun _ => Keeps.pure _
  | tempRamExit => exact tempRamExit_waiting p
  | siliconInit => exact siliconInit_waiting p
  | notifyPhases => exact notifyPhases_waiting p
  | handOff => exact handOff_waiting p
  | continueInMemory =>
    exact (tempRamExit_waiting p).bind fun _ => (siliconInit_waiting p).bind fun _ =>
      (notifyPhases_waiting p).bind fun _ => handOff_waiting p

/-- A boot that is in its first stage has added no block. -/
theorem arena_of_run {memory : Memory} {world : ω} {ops : List LoaderOp} {l : Loader ω}
    (hrun : run p ops (.start memory world) = .ok () l) (hfirst : l.stage = .preMemory) :
    l.arena = .empty := by
  have hwaiting : Keeps (Waiting .empty) (run p ops) := Keeps.forM fun op _ => perform_waiting p op
  exact (hwaiting (.start memory world) fun _ => rfl).of_ok hrun hfirst

end PlatformInit.Loader
