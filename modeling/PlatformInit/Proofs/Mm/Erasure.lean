import PlatformInit.Proofs.Mm.Calls

/-!
Noting the calls changes nothing else: a run with notes is the run without them.

What is noted does not matter. `Mirrors` says of collaborators that they do on a world with notes what
others do on the world, and that is all that is used of them.
-/
set_option autoImplicit false
namespace PlatformInit

open Step (Follows)

theorem Machine.call_follows {ω κ ε α : Type} (note : Machine ω → κ) (x : EStateM ε (Machine ω) α) :
    Follows Machine.bare (Machine.call note x) x := by
  intro m
  unfold Machine.call
  cases x m.bare <;> rfl

section
variable {ω κ : Type}

structure SmramAccess.Mirrors (a' : SmramAccess (Noted ω κ)) (a : SmramAccess ω) : Prop where
  reveal : Follows Noted.world a'.reveal a.reveal
  hide : Follows Noted.world a'.hide a.hide
  lock : Follows Noted.world a'.lock a.lock
  isOpen : ∀ n, a'.isOpen n = a.isOpen n.world
  isLocked : ∀ n, a'.isLocked n = a.isLocked n.world

structure IplParts.Mirrors (q : IplParts (Noted ω κ)) (p : IplParts ω) : Prop where
  config : q.config = p.config
  reader : q.reader = p.reader
  access : q.access.Mirrors p.access
  setAttributes : ∀ base length type, Follows Noted.world (q.cache.setAttributes base length type)
    (p.cache.setAttributes base length type)
  writeImage : ∀ destination image, Follows Machine.bare (q.launcher.writeImage destination image)
    (p.launcher.writeImage destination image)
  invalidate : ∀ base length m,
    (q.launcher.invalidate base length m).bare = p.launcher.invalidate base length m.bare
  startCore : ∀ entryPoint hobs m, p.launcher.startCore entryPoint hobs m.bare =
    ((q.launcher.startCore entryPoint hobs m).1, (q.launcher.startCore entryPoint hobs m).2.bare)

theorem SmramAccess.noting_mirrors (a : SmramAccess ω) : a.noting.Mirrors a where
  reveal := Noted.call_follows _ _
  hide := Noted.call_follows _ _
  lock := Noted.call_follows _ _
  isOpen _ := rfl
  isLocked _ := rfl

theorem IplParts.noting_mirrors (parts : IplParts ω) : parts.noting.Mirrors parts where
  config := rfl
  reader := rfl
  access := parts.access.noting_mirrors
  setAttributes _ _ _ := Noted.call_follows _ _
  writeImage _ _ := Machine.call_follows _ _
  invalidate _ _ _ := rfl
  startCore _ _ _ := rfl

end

namespace SmramAccess
variable {ω κ : Type} {a' : SmramAccess (Noted ω κ)} {a : SmramAccess ω} (h : a'.Mirrors a)
include h

theorem unlessLocked_follows {x : Attempt (Noted ω κ) EfiError Unit} {y : Attempt ω EfiError Unit}
    (hx : Follows Noted.world x y) : Follows Noted.world (a'.unlessLocked x) (a.unlessLocked y) := by
  refine Follows.get_bind fun n => ?_
  rw [h.isLocked]
  exact Follows.ite (Follows.fail _) (Follows.ofAttempt hx)

theorem openWindow_follows : Follows Noted.world a'.openWindow a.openWindow :=
  unlessLocked_follows h h.reveal

theorem closeWindow_follows : Follows Noted.world a'.closeWindow a.closeWindow :=
  unlessLocked_follows h h.hide

theorem lockWindow_follows : Follows Noted.world a'.lockWindow a.lockWindow :=
  unlessLocked_follows h h.lock

end SmramAccess

theorem SmramTable.transition_follows {ω κ : Type} {x : Step (Noted ω κ) EfiError Unit}
    {y : Step ω EfiError Unit} (h : Follows Noted.world x y) (on off : RegionState) :
    Follows (fun s : SmramTable × Noted ω κ => (s.1, s.2.world)) (transition x on off)
      (transition y on off) :=
  Follows.bind (Follows.focus (fun _ => rfl) (fun _ _ => rfl) h) fun _ => Follows.modify fun _ => rfl

def IplState.bare {ω κ : Type} (s : IplState (Noted ω κ)) : IplState ω := ⟨s.table, s.machine.bare⟩

namespace Ipl
variable {ω κ ε α : Type}

theorem onTable_follows (x : Step SmramTable ε α) :
    Follows (IplState.bare : IplState (Noted ω κ) → _) (onTable x) (onTable x) :=
  Follows.focus (fun _ => rfl) (fun _ _ => rfl) (Follows.refl x)

theorem onMachine_follows {x : Step (Machine (Noted ω κ)) ε α} {y : Step (Machine ω) ε α}
    (h : Follows Machine.bare x y) : Follows IplState.bare (onMachine x) (onMachine y) :=
  Follows.focus (fun _ => rfl) (fun _ _ => rfl) h

theorem updateCore_follows (core : UInt64) (g : CoreRecord → CoreRecord) :
    Follows (Machine.bare : Machine (Noted ω κ) → _)
      (updateCore core g : Step (Machine (Noted ω κ)) ε Unit) (updateCore core g) :=
  Follows.modify fun _ => rfl

theorem onWindow_follows {x : Step (SmramTable × Noted ω κ) ε α} {y : Step (SmramTable × ω) ε α}
    (h : Follows (fun s => (s.1, s.2.world)) x y) :
    Follows IplState.bare (onWindow x) (onWindow y) :=
  Follows.focus (fun _ => rfl) (fun _ _ => rfl) h

theorem giveUp_follows (core : UInt64) (carved : Option Carveout) :
    Follows (IplState.bare : IplState (Noted ω κ) → _) (giveUp core carved) (giveUp core carved) := by
  cases carved with
  | none => exact onMachine_follows (updateCore_follows _ _)
  | some c => exact Follows.bind (onTable_follows _) fun _ => onMachine_follows (updateCore_follows _ _)

section
variable {q : IplParts (Noted ω κ)} {parts : IplParts ω} (h : q.Mirrors parts)
include h

theorem closeWindow_follows : Follows IplState.bare (closeWindow q) (closeWindow parts) :=
  Follows.ignoringError
    (onWindow_follows (SmramTable.transition_follows (SmramAccess.closeWindow_follows h.access) _ _))

theorem cacheRange_follows (index : Nat) :
    Follows IplState.bare (cacheRange q index) (cacheRange parts index) := by
  refine Follows.get_bind fun s => Follows.bind (Follows.ofFallible _) fun region => ?_
  cases region with
  | none => exact Follows.pure _
  | some region =>
    exact Follows.ignoringError (onMachine_follows
      (Follows.focus (fun _ => rfl) (fun _ _ => rfl) (h.setAttributes _ _ _)))

theorem placeAndStart_follows (p : PeImage) (image : Bytes) (destination : UInt64) (hobs : HobList)
    (core : UInt64) : Follows Machine.bare (placeAndStart q p image destination hobs core)
      (placeAndStart parts p image destination hobs core) := by
  unfold placeAndStart
  cases alignUp destination (max p.sectionAlignment.toUInt64 1) with
  | error e => exact Follows.fail _
  | ok base =>
    refine Follows.bind (Follows.ofFallible _) fun placed => ?_
    refine Follows.bind (Follows.ofAttempt (h.writeImage _ _)) fun _ => ?_
    refine Follows.bind (Follows.modify (h.invalidate _ _)) fun _ => ?_
    refine Follows.bind (Follows.ofFallible _) fun entryPoint => ?_
    refine Follows.bind (updateCore_follows _ _) fun _ => Follows.get_bind fun m => ?_
    rw [h.startCore]
    exact Follows.bind (Follows.set rfl) fun _ => Follows.ofFallible _

theorem executeCore_follows (index : Nat) (range : SmramRange) (hobs : HobList)
    (volumes : List MappedVolume) (core : UInt64) : Follows IplState.bare
      (executeCore q index range hobs volumes core)
      (executeCore parts index range hobs volumes core) := by
  unfold executeCore
  rw [h.config, h.reader]
  refine Follows.bind (Follows.ofFallible _) fun (volume, image) => ?_
  refine Follows.bind (Follows.mapError _ (Follows.ofFallible _)) fun p => ?_
  refine Follows.bind (onTable_follows _) fun (destination, carved) => ?_
  refine Follows.bind (Follows.modify fun _ => rfl) fun _ => ?_
  refine Follows.bind (onMachine_follows (updateCore_follows _ _)) fun _ => ?_
  refine Follows.bind (Follows.attempt (onMachine_follows (placeAndStart_follows h _ _ _ _ _)))
    fun r => ?_
  cases r with
  | ok _ => exact Follows.pure _
  | error e => exact Follows.bind (giveUp_follows core carved) fun _ => Follows.fail e

theorem loadInto_follows (hobs : HobList) (volumes : List MappedVolume) (core : UInt64) :
    Follows IplState.bare (loadInto q hobs volumes core) (loadInto parts hobs volumes core) := by
  have hclose : Follows IplState.bare
      (do closeWindow q; Step.fail EfiError.unsupported : Step _ EfiError Unit)
      (do closeWindow parts; Step.fail EfiError.unsupported) :=
    Follows.bind (closeWindow_follows h) fun _ => Follows.fail _
  refine Follows.bind
    (onWindow_follows (SmramTable.transition_follows (SmramAccess.openWindow_follows h.access) _ _))
    fun _ => Follows.get_bind fun s => Follows.bind (Follows.ofFallible _) fun index => ?_
  cases index with
  | none => exact hclose
  | some index =>
    rw [Option.bind_some, Option.bind_some]
    have htable : s.bare.table = s.table := rfl
    rw [htable]
    cases s.table.ranges[index]? with
    | none => exact hclose
    | some range =>
      refine Follows.bind (cacheRange_follows h index) fun _ =>
        Follows.bind (Follows.attempt (executeCore_follows h index range hobs volumes core))
          fun r => ?_
      cases r with
      | ok _ => exact Follows.pure _
      | error e => exact hclose

end

def answered (core : UInt64) (hobs : HobList) : EStateM.Result (Fault EfiError) (IplState ω) Unit →
    EStateM.Result (Fault EfiError) (HobList × Machine ω) UInt64
  | .ok () s => .ok core (hobs, s.machine)
  | .error e s => .error e (hobs, s.machine)

theorem loadCore_of_ok {parts : IplParts ω} {volumes : List MappedVolume} {hobs : HobList}
    {machine : Machine ω} {table : SmramTable}
    (h : SmramTable.ofHobs (hobs.publishCore machine.free) = .ok table) :
    loadCore parts volumes (hobs, machine) =
      answered machine.free (hobs.publishCore machine.free)
        (loadInto parts (hobs.publishCore machine.free) volumes machine.free
          ⟨table, machine.newCore.1⟩) := by
  simp only [loadCore, Machine.newCore, h]
  cases loadInto parts _ volumes machine.free _ <;> rfl

theorem loadCore_of_error {parts : IplParts ω} {volumes : List MappedVolume} {hobs : HobList}
    {machine : Machine ω} {e : BootError}
    (h : SmramTable.ofHobs (hobs.publishCore machine.free) = .error e) :
    loadCore parts volumes (hobs, machine) =
      .error (.error e.toEfi) (hobs.publishCore machine.free, machine.newCore.1) := by
  simp only [loadCore, Machine.newCore, h]

theorem answered_mapState (core : UInt64) (hobs : HobList)
    (r : EStateM.Result (Fault EfiError) (IplState (Noted ω κ)) Unit) :
    answered core hobs (Step.mapState IplState.bare r) =
      Step.mapState (fun s => (s.1, s.2.bare)) (answered core hobs r) := by
  cases r <;> rfl

/-- What a run with notes answers and leaves is what the run without them does. -/
theorem loadCore_follows {q : IplParts (Noted ω κ)} {parts : IplParts ω} (hparts : q.Mirrors parts)
    (volumes : List MappedVolume) : Follows (fun s : HobList × Machine (Noted ω κ) => (s.1, s.2.bare))
      (loadCore q volumes) (loadCore parts volumes) := by
  rintro ⟨hobs, machine⟩
  have hfree : machine.bare.free = machine.free := rfl
  cases h : SmramTable.ofHobs (hobs.publishCore machine.free) with
  | error e =>
    rw [loadCore_of_error h, loadCore_of_error (hfree ▸ h)]
    rfl
  | ok table =>
    have hload := loadInto_follows hparts (hobs.publishCore machine.free) volumes machine.free
      ⟨table, machine.newCore.1⟩
    rw [loadCore_of_ok h, loadCore_of_ok (hfree ▸ h), ← answered_mapState, ← hload]
    rfl

end Ipl
end PlatformInit
