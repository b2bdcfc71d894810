import PlatformInit.Proofs.Mm.Erasure

/-!
What the collaborators keep of the world, the loader keeps.

The loader reaches the world through its collaborators only, and asks the window for a transition only
while it is not locked. What each of these calls keeps is kept by the whole run, however it ends.
-/
set_option autoImplicit false
namespace PlatformInit

open Step (Ends Keeps)

section
variable {ω : Type} (I : ω → Prop)

/-- A transition keeps `I` when it is asked for while the window is not locked. -/
structure SmramAccess.KeepsWorld (a : SmramAccess ω) : Prop where
  reveal : ∀ w, I w → a.isLocked w = false → Ends a.reveal w fun _ => I
  hide : ∀ w, I w → a.isLocked w = false → Ends a.hide w fun _ => I
  lock : ∀ w, I w → a.isLocked w = false → Ends a.lock w fun _ => I

structure IplParts.KeepsWorld (p : IplParts ω) : Prop where
  access : p.access.KeepsWorld I
  setAttributes : ∀ base length type, Keeps I (p.cache.setAttributes base length type)
  writeImage : ∀ destination image,
    Keeps (fun m => I m.world) (p.launcher.writeImage destination image)
  invalidate : ∀ base length m, I m.world → I (p.launcher.invalidate base length m).world
  startCore : ∀ entryPoint hobs m, I m.world → I (p.launcher.startCore entryPoint hobs m).2.world

end

namespace SmramAccess
variable {ω : Type} {I : ω → Prop} {a : SmramAccess ω}

theorem unlessLocked_keeps {x : Attempt ω EfiError Unit}
    (hx : ∀ w, I w → a.isLocked w = false → Ends x w fun _ => I) : Keeps I (a.unlessLocked x) := by
  intro w hw
  refine Ends.get_bind ?_
  by_cases hlocked : a.isLocked w = true
  · rw [if_pos hlocked]
    exact hw
  · rw [if_neg hlocked]
    exact Ends.ofAttempt (hx w hw (Bool.eq_false_iff.mpr hlocked))

variable (h : a.KeepsWorld I)
include h

theorem openWindow_keeps : Keeps I a.openWindow := unlessLocked_keeps h.reveal

theorem closeWindow_keeps : Keeps I a.closeWindow := unlessLocked_keeps h.hide

theorem lockWindow_keeps : Keeps I a.lockWindow := unlessLocked_keeps h.lock

end SmramAccess

theorem Machine.onWorld_keeps {ω ε α : Type} {I : ω → Prop} {x : Step ω ε α} (hx : Keeps I x) :
    Keeps (fun m => I m.world) (Machine.onWorld x) :=
  Keeps.focus hx (fun _ hm => hm) fun _ _ hw => hw

theorem SmramTable.transition_keeps {ω : Type} {I : ω → Prop} {x : Step ω EfiError Unit}
    (hx : Keeps I x) (on off : RegionState) : Keeps (fun s => I s.2) (transition x on off) :=
  Keeps.bind (Keeps.focus hx (fun _ hs => hs) fun _ _ hw => hw) fun _ => Keeps.modify fun _ hs => hs

namespace Ipl
variable {ω ε α : Type} {I : ω → Prop}

theorem onTable_keeps (x : Step SmramTable ε α) :
    Keeps (fun s : IplState ω => I s.machine.world) (onTable x) := fun _ hs =>
  Ends.focus (Ends.intro (fun _ _ _ => hs) fun _ _ _ => hs)

theorem onMachine_keeps {x : Step (Machine ω) ε α} (hx : Keeps (fun m => I m.world) x) :
    Keeps (fun s : IplState ω => I s.machine.world) (onMachine x) :=
  Keeps.focus hx (fun _ hs => hs) fun _ _ hm => hm

theorem onWindow_keeps {x : Step (SmramTable × ω) ε α} (hx : Keeps (fun s => I s.2) x) :
    Keeps (fun s : IplState ω => I s.machine.world) (onWindow x) :=
  Keeps.focus hx (fun _ hs => hs) fun _ _ ht => ht

theorem giveUp_keeps (core : UInt64) (carved : Option Carveout) :
    Keeps (fun s : IplState ω => I s.machine.world) (giveUp core carved) := by
  have hupdate : Keeps (fun s : IplState ω => I s.machine.world)
      (onMachine (updateCore core fun r => { r with ranges := (0, 0) }) : Step _ EfiError Unit) :=
    onMachine_keeps (Keeps.modify fun _ hm => hm)
  cases carved with
  | none => exact hupdate
  | some c => exact Keeps.bind (onTable_keeps _) fun _ => hupdate

variable {parts : IplParts ω}

theorem closeWindow_keeps (h : parts.access.KeepsWorld I) :
    Keeps (fun s : IplState ω => I s.machine.world) (closeWindow parts) :=
  Keeps.ignoringError (onWindow_keeps
    (SmramTable.transition_keeps (SmramAccess.closeWindow_keeps h) _ _))

theorem cacheRange_keeps
    (hset : ∀ base length type, Keeps I (parts.cache.setAttributes base length type)) (index : Nat) :
    Keeps (fun s : IplState ω => I s.machine.world) (cacheRange parts index) := by
  refine Keeps.get_bind fun _ => Keeps.bind (Keeps.ofFallible _) fun region => ?_
  cases region with
  | none => exact Keeps.pure _
  | some region =>
    exact Keeps.ignoringError (onMachine_keeps (Machine.onWorld_keeps (hset _ _ _)))

theorem placeAndStart_keeps (h : parts.KeepsWorld I) (p : PeImage) (image : Bytes) (destination : UInt64)
    (hobs : HobList) (core : UInt64) :
    Keeps (fun m => I m.world) (placeAndStart parts p image destination hobs core) := by
  unfold placeAndStart
  cases alignUp destination (max p.sectionAlignment.toUInt64 1) with
  | error e => exact Keeps.fail _
  | ok base =>
    refine Keeps.bind (Keeps.ofFallible _) fun loaded => ?_
    refine Keeps.bind (Keeps.ofAttempt (h.writeImage _ _)) fun _ => ?_
    refine Keeps.bind (Keeps.modify (h.invalidate _ _)) fun _ => ?_
    refine Keeps.bind (Keeps.ofFallible _) fun entryPoint => ?_
    refine Keeps.bind (Keeps.modify fun _ hm => hm) fun _ => fun m hm => Ends.get_bind ?_
    have hstarted := h.startCore entryPoint hobs.toBytes m hm
    exact Ends.bind_of_ok rfl (Keeps.ofFallible _ _ hstarted)

def PlacingKeeps (I : ω → Prop) (parts : IplParts ω) (volumes : List MappedVolume) (hobs : HobList)
    (core : UInt64) : Prop :=
  ∀ volume image p destination, MappedVolume.findCore volumes = .ok (volume, image) →
    parts.reader.parse image = .ok p →
    Keeps (fun m => I m.world) (placeAndStart parts p image destination hobs core)

variable {volumes : List MappedVolume} {hobs : HobList} {core : UInt64}

theorem executeCore_keeps (hplace : PlacingKeeps I parts volumes hobs core) (index : Nat)
    (range : SmramRange) :
    Keeps (fun s : IplState ω => I s.machine.world)
      (executeCore parts index range hobs volumes core) := by
  intro s hs
  refine Ends.ofFallible_bind (fun (volume, image) hfound => ?_) fun _ _ => hs
  dsimp only
  cases hparse : parts.reader.parse image with
  | error e => exact Ends.bind_of_error rfl hs
  | ok p =>
    refine Ends.bind_of_ok rfl (Keeps.bind (onTable_keeps _) (fun (destination, carved) => ?_) s hs)
    refine Keeps.bind (Keeps.modify fun _ hs => hs) fun _ => ?_
    refine Keeps.bind (onMachine_keeps (Keeps.modify fun _ hm => hm)) fun _ => ?_
    refine Keeps.bind (Keeps.attempt (onMachine_keeps
      (hplace volume image p destination hfound hparse))) fun r => ?_
    cases r with
    | ok _ => exact Keeps.pure _
    | error e => exact Keeps.bind (giveUp_keeps core carved) fun _ => Keeps.fail _

theorem loadInto_keeps (haccess : parts.access.KeepsWorld I)
    (hset : ∀ base length type, Keeps I (parts.cache.setAttributes base length type))
    (hplace : PlacingKeeps I parts volumes hobs core) :
    Keeps (fun s : IplState ω => I s.machine.world) (loadInto parts hobs volumes core) := by
  have hclose : Keeps (fun s : IplState ω => I s.machine.world)
      (do closeWindow parts; Step.fail EfiError.unsupported : Step _ EfiError Unit) :=
    Keeps.bind (closeWindow_keeps haccess) fun _ => Keeps.fail _
  refine Keeps.bind (onWindow_keeps
    (SmramTable.transition_keeps (SmramAccess.openWindow_keeps haccess) _ _)) fun _ => ?_
  refine Keeps.get_bind fun s => Keeps.bind (Keeps.ofFallible _) fun index => ?_
  cases index with
  | none => exact hclose
  | some index =>
    rw [Option.bind_some]
    cases s.table.ranges[index]? with
    | none => exact hclose
    | some range =>
      refine Keeps.bind (cacheRange_keeps hset index) fun _ => ?_
      refine Keeps.bind (Keeps.attempt (executeCore_keeps hplace index range)) fun r => ?_
      cases r with
      | ok _ => exact Keeps.pure _
      | error _ => exact hclose

/-- A load keeps what its collaborators keep, if placing the core that it finds keeps it. -/
theorem loadCore_ends_keeping (haccess : parts.access.KeepsWorld I)
    (hset : ∀ base length type, Keeps I (parts.cache.setAttributes base length type))
    {machine : Machine ω}
    (hplace : PlacingKeeps I parts volumes (hobs.publishCore machine.free) machine.free)
    (hmachine : I machine.world) :
    Ends (loadCore parts volumes) (hobs, machine) fun _ t => I t.2.world := by
  unfold Ends
  cases htable : SmramTable.ofHobs (hobs.publishCore machine.free) with
  | error e =>
    rw [loadCore_of_error htable]
    exact hmachine
  | ok table =>
    rw [loadCore_of_ok htable]
    have hload := loadInto_keeps haccess hset hplace ⟨table, machine.newCore.1⟩ hmachine
    cases hend : loadInto parts (hobs.publishCore machine.free) volumes machine.free
      ⟨table, machine.newCore.1⟩ with
    | ok _ s => exact hload.of_ok hend
    | error _ s => exact hload.of_error hend

theorem loadCore_keeps (h : parts.KeepsWorld I) (volumes : List MappedVolume) :
    Keeps (fun s : HobList × Machine ω => I s.2.world) (loadCore parts volumes) := by
  rintro ⟨hobs, machine⟩ hs
  exact loadCore_ends_keeping h.access h.setAttributes
    (fun _ image p destination _ _ => placeAndStart_keeps h p image destination _ _) hs

end Ipl
end PlatformInit
