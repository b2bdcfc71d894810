import PlatformInit.Bench.Pe
import PlatformInit.Proofs.Mm.LockBelief
import PlatformInit.Proofs.Mm.Watching

/-!
A locked window is left alone.

Every chain of calls that leads to a transition asks first whether the window is locked. As long as
the chipset stays locked, whoever locked it and when, no operation asks it for another transition.
-/
set_option autoImplicit false
namespace PlatformInit

open Step (Ends Keeps)

namespace Noted
variable {ω : Type} (L : ω → Prop)

/-- Every transition found the window unlocked, none comes after a call that left it locked, and such a
call has left it locked until now. -/
structure Orderly (n : Noted ω (Encounter ω)) : Prop where
  unlocked : ∀ e ∈ n.calls, e.transition ≠ none → ¬L e.found
  none_after : n.calls.Pairwise fun later earlier => L earlier.left → later.transition = none
  locked : ∀ e ∈ n.calls, L e.left → L n.world

structure Still (n : Noted ω (Encounter ω)) : Prop where
  locked : L n.world
  none : ∀ e ∈ n.calls, e.transition = none

/-- What is true of the notes stays true when a call is noted that keeps the lock, or a transition of an
unlocked window. -/
structure Admits (I : Noted ω (Encounter ω) → Prop) : Prop where
  other : ∀ n w, I n → (L n.world → L w) → I ⟨w, ⟨none, n.world, w⟩ :: n.calls⟩
  transition : ∀ n call w, I n → ¬L n.world → I ⟨w, ⟨some call, n.world, w⟩ :: n.calls⟩

theorem orderly_admits : Admits L (Orderly L) where
  other n w hn hkept := by
    refine ⟨List.forall_mem_cons.mpr ⟨fun h => absurd rfl h, hn.unlocked⟩,
      List.pairwise_cons.mpr ⟨fun _ _ _ => rfl, hn.none_after⟩, ?_⟩
    exact List.forall_mem_cons.mpr ⟨id, fun e he hleft => hkept (hn.locked e he hleft)⟩
  transition n call w hn hunlocked := by
    have hnever : ∀ e ∈ n.calls, ¬L e.left := fun e he hleft => hunlocked (hn.locked e he hleft)
    refine ⟨List.forall_mem_cons.mpr ⟨fun _ => hunlocked, hn.unlocked⟩,
      List.pairwise_cons.mpr ⟨fun e he hleft => absurd hleft (hnever e he), hn.none_after⟩, ?_⟩
    exact List.forall_mem_cons.mpr ⟨id, fun e he hleft => absurd hleft (hnever e he)⟩

theorem still_admits : Admits L (Still L) where
  other _ _ hn hkept := ⟨hkept hn.locked, List.forall_mem_cons.mpr ⟨rfl, hn.none⟩⟩
  transition _ _ _ hn hunlocked := absurd hn.locked hunlocked

end Noted

section
variable {ω ε α : Type} {L : ω → Prop} {I : Noted ω (Encounter ω) → Prop} (hI : Noted.Admits L I)
include hI

theorem Noted.watch_keeps {x : EStateM ε ω α} (hx : Keeps L x) : Keeps I (Noted.watch none x) := by
  intro n hn
  have hnext (w : ω) (hkept : L n.world → L w) := hI.other n w hn hkept
  unfold Ends Noted.watch
  cases hend : x n.world with
  | ok a w => exact hnext w fun hlocked => (hx n.world hlocked).of_ok hend
  | error e w => exact hnext w fun hlocked => (hx n.world hlocked).of_error hend

theorem Noted.watch_transition (call : WindowCall) (x : EStateM ε ω α) (n : Noted ω (Encounter ω))
    (hn : I n) (hunlocked : ¬L n.world) : Ends (Noted.watch (some call) x) n fun _ => I := by
  have hnext (w : ω) := hI.transition n call w hn hunlocked
  unfold Ends Noted.watch
  cases x n.world with
  | ok a w => exact hnext w
  | error e w => exact hnext w

theorem Machine.watch_keeps {x : EStateM ε (Machine ω) α} (hx : Keeps (fun m => L m.world) x) :
    Keeps (fun m => I m.world) (Machine.watch x) := by
  intro m hm
  have hnext (after : Machine ω) (hkept : L m.world.world → L after.world) :=
    hI.other m.world after.world hm hkept
  unfold Ends Machine.watch
  cases hend : x m.bare with
  | ok a after => exact hnext after fun hlocked => (hx m.bare hlocked).of_ok hend
  | error e after => exact hnext after fun hlocked => (hx m.bare hlocked).of_error hend

theorem SmramAccess.watched_keeps (a : SmramAccess ω) (hlocked : ∀ w, a.isLocked w = false → ¬L w) :
    a.watched.KeepsWorld I where
  reveal n hn hunlocked := Noted.watch_transition hI .reveal _ n hn (hlocked n.world hunlocked)
  hide n hn hunlocked := Noted.watch_transition hI .hide _ n hn (hlocked n.world hunlocked)
  lock n hn hunlocked := Noted.watch_transition hI .lock _ n hn (hlocked n.world hunlocked)

theorem MmParts.watched_keeps {p : MmParts ω} (hlocked : ∀ w, p.access.isLocked w = false → ¬L w)
    (h : p.KeepsWorld L) : p.watched.KeepsWorld I where
  ipl := {
    access := SmramAccess.watched_keeps hI p.ipl.access hlocked
    setAttributes := fun base length type => Noted.watch_keeps hI (h.ipl.setAttributes base length type)
    writeImage := fun destination image => Machine.watch_keeps hI (h.ipl.writeImage destination image)
    invalidate := fun base length m hm => hI.other m.world _ hm (h.ipl.invalidate base length m.bare)
    startCore := fun entryPoint hobs m hm => hI.other m.world _ hm (h.ipl.startCore entryPoint hobs m.bare) }
  gateway := {
    comm := {
      access := SmramAccess.watched_keeps hI p.gateway.comm.access (p.same ▸ hlocked)
      executor := by
        intro e he b
        obtain ⟨bare, hbare, rfl⟩ := Option.map_eq_some_iff.mp he
        exact Machine.watch_keeps hI (h.gateway.comm.executor bare hbare b)
      direct := by
        intro d hd recipient area length m hm
        obtain ⟨bare, hbare, rfl⟩ := Option.map_eq_some_iff.mp hd
        exact hI.other m.world _ hm (h.gateway.comm.direct bare hbare recipient area length m.bare) }
    isInstalled := fun guid n hn => hI.other n _ hn (h.gateway.isInstalled guid n.world) }

end

namespace MmState
variable {ω : Type} {p : MmParts ω}

def Locked (p : MmParts ω) (w : ω) : Prop := p.access.isLocked w = true

/-- The collaborators other than the chipset may do anything but unlock the window. -/
def KeepsLock (p : MmParts ω) : Prop := p.KeepsWorld (Locked p)

/-- The states that the components are in between operations, and what their collaborators did, newest
first. In the meantime anything may change, as long as a locked window stays locked. -/
inductive Run (p : MmParts ω) (start : MmState ω) : List (Encounter ω) → MmState ω → Prop where
  | start : Run p start [] start
  | outside {log : List (Encounter ω)} {s : MmState ω} (h : Run p start log s) (s' : MmState ω)
      (hlocked : Locked p s.world → Locked p s'.world) : Run p start log s'
  | operation {log : List (Encounter ω)} {s : MmState ω} (h : Run p start log s) (op : MmOp) :
      Run p start (encounters p op s ++ log) (Step.after (perform p op) s)

theorem not_locked {w : ω} (h : p.access.isLocked w = false) : ¬Locked p w := by
  rw [Locked, h]
  exact Bool.false_ne_true

theorem encounters_keep {I : Noted ω (Encounter ω) → Prop} (hI : Noted.Admits (Locked p) I)
    (hkeeps : KeepsLock p) (op : MmOp) {s : MmState ω} (hs : I ⟨s.world, []⟩) :
    I ⟨(Step.after (perform p op) s).world, encounters p op s⟩ := by
  have hwatched := perform_keeps (MmParts.watched_keeps hI (fun _ => not_locked) hkeeps) op (s.noted []) hs
  have hafter := (perform_follows p op).after (s.noted [])
  change Step.after (perform p op) s = _ at hafter
  rw [hafter]
  exact Ends.iff_answer.mp hwatched

theorem perform_orderly (hkeeps : KeepsLock p) (op : MmOp) (s : MmState ω) :
    Noted.Orderly (Locked p) ⟨(Step.after (perform p op) s).world, encounters p op s⟩ :=
  encounters_keep (Noted.orderly_admits _) hkeeps op ⟨List.forall_mem_nil _, .nil, List.forall_mem_nil _⟩

theorem perform_still (hkeeps : KeepsLock p) (op : MmOp) {s : MmState ω} (hs : Locked p s.world) :
    Noted.Still (Locked p) ⟨(Step.after (perform p op) s).world, encounters p op s⟩ :=
  encounters_keep (Noted.still_admits _) hkeeps op ⟨hs, List.forall_mem_nil _⟩

theorem table_of_error {op : MmOp} (hop : op = .openRanges ∨ op = .closeRanges) {s t : MmState ω}
    {e : Fault EfiError} (h : perform p op s = .error e t) : t.table = s.table := by
  have htransition (x : Step ω EfiError Unit) (on off : RegionState) :
      Ends (SmramTable.transition x on off) (s.table, s.world) fun r u =>
        r = .ok () ∨ u.1 = s.table := by
    refine Ends.bind (R := fun _ u => u.1 = s.table) ?_ (fun _ _ _ => Ends.modify (.inl rfl))
      fun _ _ hu => .inr hu
    exact Ends.focus (Ends.intro (fun _ _ _ => rfl) fun _ _ _ => rfl)
  have hends : Ends (perform p op) s fun r u => r = .ok () ∨ u.table = s.table := by
    obtain rfl | rfl := hop
    · exact Ends.focus (htransition _ _ _)
    · exact Ends.focus (htransition _ _ _)
  exact (hends.of_error h).resolve_left nofun

/-- In a run of any operations, with any collaborators that do not unlock the window: every transition
that the chipset is asked for finds the window unlocked, and none is asked for after a call that left
it locked, be it in the middle of an operation. From a locked state there is none at all. A refused
attempt to open or close the ranges leaves their states as they were. -/
theorem run_lock_respected {start s : MmState ω} {log : List (Encounter ω)} (hkeeps : KeepsLock p)
    (hrun : Run p start log s) :
    (∀ e ∈ log, e.transition ≠ none → p.access.isLocked e.found = false) ∧
    (log.Pairwise fun later earlier => Locked p earlier.left → later.transition = none) ∧
    (Locked p start.world → Locked p s.world ∧ ∀ e ∈ log, e.transition = none) ∧
    ∀ op, op = .openRanges ∨ op = .closeRanges → ∀ e t, perform p op s = .error e t →
      t.table = s.table := by
  have hlog : Noted.Orderly (Locked p) ⟨s.world, log⟩ ∧
      (Locked p start.world → Noted.Still (Locked p) ⟨s.world, log⟩) := by
    induction hrun with
    | start =>
      exact ⟨⟨List.forall_mem_nil _, .nil, List.forall_mem_nil _⟩, fun hs => ⟨hs, List.forall_mem_nil _⟩⟩
    | outside _ s' hlocked ih =>
      obtain ⟨horderly, hstill⟩ := ih
      exact ⟨⟨horderly.unlocked, horderly.none_after, fun e he hleft => hlocked (horderly.locked e he hleft)⟩,
        fun hs => ⟨hlocked (hstill hs).locked, (hstill hs).none⟩⟩
    | @operation log s _ op ih =>
      obtain ⟨hbefore, hstill⟩ := ih
      have hnew := perform_orderly hkeeps op s
      have hquiet (e : Encounter ω) (he : e ∈ log) (hleft : Locked p e.left) :=
        perform_still hkeeps op (hbefore.locked e he hleft)
      refine ⟨⟨?_, ?_, ?_⟩, fun hs => ?_⟩
      · exact List.forall_mem_append.mpr ⟨hnew.unlocked, hbefore.unlocked⟩
      · refine List.pairwise_append.mpr ⟨hnew.none_after, hbefore.none_after, ?_⟩
        exact fun later hlater earlier hearlier hleft => (hquiet earlier hearlier hleft).none later hlater
      · exact List.forall_mem_append.mpr
          ⟨hnew.locked, fun e he hleft => (hquiet e he hleft).locked⟩
      · have hnow := perform_still hkeeps op (hstill hs).locked
        exact ⟨hnow.locked, List.forall_mem_append.mpr ⟨hnow.none, (hstill hs).none⟩⟩
  obtain ⟨horderly, hstill⟩ := hlog
  exact ⟨fun e he htransition => Bool.eq_false_iff.mpr (horderly.unlocked e he htransition),
    horderly.none_after, fun hs => ⟨(hstill hs).locked, (hstill hs).none⟩,
    fun op hop e t h => table_of_error hop h⟩

def installed : MmParts (Bool × Bool) where
  ipl := ⟨{}, Bench.peReader, Gateway.acknowledged.comm.access, ⟨pure (), fun _ _ _ => pure ()⟩,
    ⟨fun _ _ => pure (), fun _ _ => id, fun _ _ m => (0, m)⟩⟩
  gateway := Gateway.acknowledged
  same := rfl

theorem installed_keepsLock : KeepsLock installed where
  ipl := {
    access := Gateway.acknowledged_keeps.comm.access
    setAttributes := fun _ _ _ _ hw => hw
    writeImage := fun _ _ _ hm => hm
    invalidate := fun _ _ _ hm => hm
    startCore := fun _ _ _ hm => hm }
  gateway := Gateway.acknowledged_keeps

def unlocked : MmState (Bool × Bool) :=
  ⟨Gateway.handOff, ⟨[⟨0x1000, 0x1000, 0x1000, .closed⟩]⟩, Gateway.unstarted.withWorld (true, false)⟩

def ready : MmState (Bool × Bool) := Step.after (perform installed .openRanges) unlocked

def started : MmState (Bool × Bool) :=
  Step.after (perform installed (.gateway (.start Gateway.handOff 0))) ready

def startedLog : List (Encounter (Bool × Bool)) :=
  encounters installed (.gateway (.start Gateway.handOff 0)) ready ++
    (encounters installed .openRanges unlocked ++ [])

theorem run_started : Run installed unlocked startedLog started :=
  .operation (.operation .start .openRanges) (.gateway (.start Gateway.handOff 0))

theorem run_lock_respected_started :
    startedLog.map Encounter.transition = [none, none, none, some .lock, none, some .reveal] ∧
    (startedLog.Pairwise fun later earlier => Locked installed earlier.left → later.transition = none) ∧
    Locked installed started.world ∧
    (∀ e ∈ encounters installed (.communicator .runDispatcher) started, e.transition = none) ∧
    ∃ e t, perform installed .closeRanges started = .error e t ∧ t.table = started.table := by
  obtain ⟨-, hordered, -, hrefused⟩ := run_lock_respected installed_keepsLock run_started
  have hlocked : Locked installed started.world := by unfold Locked; decide +kernel
  have hdispatch : Run installed started _ _ := .operation .start (.communicator .runDispatcher)
  obtain ⟨-, -, hstill, -⟩ := run_lock_respected installed_keepsLock hdispatch
  obtain ⟨-, hnone⟩ := hstill hlocked
  rw [List.append_nil] at hnone
  have hfails : Step.succeeds (perform installed .closeRanges) started = false := by decide +kernel
  refine ⟨by decide +kernel, hordered, hlocked, hnone, ?_⟩
  cases hclose : perform installed .closeRanges started with
  | ok _ t =>
    rw [Step.succeeds, hclose] at hfails
    cases hfails
  | error e t => exact ⟨e, t, rfl, hrefused _ (.inr rfl) e t hclose⟩

end MmState
end PlatformInit
