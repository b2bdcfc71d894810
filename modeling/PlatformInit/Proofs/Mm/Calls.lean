import PlatformInit.Mm.Ipl
import PlatformInit.Proofs.Noted

/-!
The calls that the loader makes of its collaborators.

`IplParts.noting` lets any collaborators do what they do and notes each call in the world, with the
world or the machine as it was when the call was made. What is true of every note of every run is
true of every call.
-/
set_option autoImplicit false
namespace PlatformInit

open Step (Keeps Ends)

namespace Machine
variable {ω κ ε α : Type}

def bare (m : Machine (Noted ω κ)) : Machine ω := ⟨m.memory, m.cores, m.free, m.world.world⟩

def noted (m : Machine ω) (calls : List κ) : Machine (Noted ω κ) :=
  ⟨m.memory, m.cores, m.free, ⟨m.world, calls⟩⟩

def call (note : Machine ω → κ) (x : EStateM ε (Machine ω) α) : EStateM ε (Machine (Noted ω κ)) α :=
  fun m =>
    match x m.bare with
    | .ok a after => .ok a (after.noted (note m.bare :: m.world.calls))
    | .error e after => .error e (after.noted (note m.bare :: m.world.calls))

def All (P : κ → Prop) (m : Machine (Noted ω κ)) : Prop := m.world.All P

theorem call_calls (note : Machine ω → κ) (x : EStateM ε (Machine ω) α) (m : Machine (Noted ω κ)) :
    Ends (call note x) m fun _ t => t.world.calls = note m.bare :: m.world.calls := by
  unfold Ends call
  cases x m.bare <;> rfl

theorem call_ends {P : κ → Prop} {note : Machine ω → κ} {m : Machine (Noted ω κ)} (hm : m.All P)
    (h : P (note m.bare)) (x : EStateM ε (Machine ω) α) : Ends (call note x) m fun _ => All P := by
  refine (call_calls note x m).mono fun _ t ht => ?_
  unfold All Noted.All
  rw [ht]
  exact List.forall_mem_cons.mpr ⟨h, hm⟩

end Machine

/-- A call of a collaborator, with what it found. -/
inductive IplCall (ω : Type) where
  | reveal (world : ω)
  | hide (world : ω)
  | lock (world : ω)
  | resetCache (world : ω)
  | setAttributes (base length : UInt64) (type : CacheType) (world : ω)
  | writeImage (destination : UInt64) (image : Bytes) (machine : Machine ω)
  | invalidate (base length : UInt64) (machine : Machine ω)
  | startCore (entryPoint : UInt64) (hobs : Bytes) (machine : Machine ω)

section
variable {ω : Type}

def IplCall.isWrite : IplCall ω → Bool
  | writeImage .. => true
  | _ => false

def IplCall.isStart : IplCall ω → Bool
  | startCore .. => true
  | reveal _ | hide _ | lock _ | resetCache _ | setAttributes .. | writeImage .. | invalidate .. => false

def SmramAccess.noting (a : SmramAccess ω) : SmramAccess (Noted ω (IplCall ω)) where
  reveal := Noted.call .reveal a.reveal
  hide := Noted.call .hide a.hide
  lock := Noted.call .lock a.lock
  isOpen n := a.isOpen n.world
  isLocked n := a.isLocked n.world

def CacheController.noting (c : CacheController ω) : CacheController (Noted ω (IplCall ω)) where
  reset := Noted.call .resetCache c.reset
  setAttributes base length type :=
    Noted.call (.setAttributes base length type) (c.setAttributes base length type)

def CoreLauncher.noting (l : CoreLauncher (Machine ω)) :
    CoreLauncher (Machine (Noted ω (IplCall ω))) where
  writeImage destination image :=
    Machine.call (.writeImage destination image) (l.writeImage destination image)
  invalidate base length m :=
    (l.invalidate base length m.bare).noted (.invalidate base length m.bare :: m.world.calls)
  startCore entryPoint hobs m :=
    let (status, after) := l.startCore entryPoint hobs m.bare
    (status, after.noted (.startCore entryPoint hobs m.bare :: m.world.calls))

def IplParts.noting (parts : IplParts ω) : IplParts (Noted ω (IplCall ω)) :=
  ⟨parts.config, parts.reader, parts.access.noting, parts.cache.noting, parts.launcher.noting⟩

end

def IplState.All {ω κ : Type} (P : κ → Prop) (s : IplState (Noted ω κ)) : Prop := s.machine.All P

namespace Ipl
variable {ω : Type}

/-- The calls that are made to load a core, newest first. -/
def loadCalls (parts : IplParts ω) (volumes : List MappedVolume) (hobs : HobList) (m : Machine ω) :
    List (IplCall ω) :=
  match loadCore parts.noting volumes (hobs, m.noted []) with
  | .ok _ s => s.2.world.calls
  | .error _ s => s.2.world.calls

end Ipl
end PlatformInit
