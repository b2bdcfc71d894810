import PlatformInit.Proofs.Mm.FixedPlace
import PlatformInit.Proofs.Mm.Loading
import PlatformInit.Proofs.Mm.Window

/-!
How a load ends once the window is open.

A load that fails ends with the one attempt to close the window, and the record of the core lists no
ranges, whether they were never published or are taken back. `Resting` is what all failures have in
common before that attempt; a load that succeeds ends with the start of the core.
-/
set_option autoImplicit false
namespace PlatformInit

open Step (Ends Keeps Returns Unfailing)

/-- The call does not close the window. -/
def IplCall.Quiet {ω : Type} : IplCall ω → Prop
  | hide _ => False
  | _ => True

/-- The call of an attempt to close the window: none while it is locked. -/
def SmramAccess.hideCalls {ω : Type} (a : SmramAccess ω) (w : ω) : List (IplCall ω) :=
  if a.isLocked w then [] else [.hide w]

theorem Status.eq_success_of_ofExcept {s : Status}
    (h : (Fallible.ofExcept s.toExcept : Fallible EfiError Unit) = .ok ()) : s = success := by
  rw [toExcept] at h
  split at h
  · assumption
  · cases h

theorem SmramTable.restore_unfailing (c : Carveout) : Unfailing (restore c) := by
  refine Unfailing.get_bind fun t => Unfailing.bind (Unfailing.set _) fun _ => ?_
  cases (t.ranges.filter fun r => !records c r)[c.index]? with
  | none => exact Unfailing.pure _
  | some r => exact Unfailing.bind (Unfailing.ofHalting _) fun _ => Unfailing.set _

theorem SmramAccess.noting_openWindow {ω : Type} {a : SmramAccess ω} {n : Noted ω (IplCall ω)} {w : ω}
    (h : a.openWindow n.world = .ok () w) :
    a.noting.openWindow n = .ok () ⟨w, .reveal n.world :: n.calls⟩ := by
  rw [openWindow, unlessLocked_eq] at h
  rw [openWindow, unlessLocked_eq]
  change (if a.isLocked n.world then _ else Step.ofAttempt (Noted.call IplCall.reveal a.reveal) n) = _
  cases hlocked : a.isLocked n.world with
  | true =>
    rw [hlocked, if_pos rfl] at h
    cases h
  | false =>
    rw [hlocked, if_neg Bool.false_ne_true] at h
    rw [if_neg Bool.false_ne_true]
    unfold Step.ofAttempt Noted.call
    unfold Step.ofAttempt at h
    cases hreveal : a.reveal n.world with
    | ok _ left =>
      rw [hreveal] at h
      cases h
      rfl
    | error e left =>
      rw [hreveal] at h
      cases h

namespace Ipl
variable {ω : Type}

/-! A transition of the window, with what it leaves. -/

section
variable {x : Step ω EfiError Unit} {s : IplState ω} {w : ω}

theorem transition_of_ok (h : x s.machine.world = .ok () w) (on off : RegionState) :
    onWindow (SmramTable.transition x on off) s =
      .ok () ⟨s.table.setState on off, { s.machine with world := w }⟩ := by
  have hfocus : Step.focus Prod.snd (fun w (t : SmramTable × ω) => (t.1, w)) x
      (s.table, s.machine.world) = .ok () (s.table, w) := Step.focus_of_ok h
  have hend : SmramTable.transition x on off (s.table, s.machine.world) =
      .ok () (s.table.setState on off, w) := Step.bind_of_ok hfocus
  refine Step.focus_of_ok (t := s) (s := (s.table.setState on off, w)) ?_
  exact hend

theorem transition_of_error {e : Fault EfiError} (h : x s.machine.world = .error e w)
    (on off : RegionState) : onWindow (SmramTable.transition x on off) s =
      .error e { s with machine := { s.machine with world := w } } := by
  have hfocus : Step.focus Prod.snd (fun w (t : SmramTable × ω) => (t.1, w)) x
      (s.table, s.machine.world) = .error e (s.table, w) := Step.focus_of_error h
  have hend : SmramTable.transition x on off (s.table, s.machine.world) = .error e (s.table, w) :=
    Step.bind_of_error hfocus
  refine Step.focus_of_error (t := s) (s := (s.table, w)) ?_
  exact hend

theorem transition_returns (hx : Ends x s.machine.world fun r _ => Returns r) (on off : RegionState) :
    Ends (onWindow (SmramTable.transition x on off)) s fun r t =>
      Returns r ∧ ∀ a, r = .ok a → t.table = s.table.setState on off := by
  cases h : x s.machine.world with
  | ok _ w =>
    exact Ends.of_eq_ok (transition_of_ok h on off) ⟨trivial, fun _ _ => rfl⟩
  | error e w =>
    refine Ends.of_eq_error (transition_of_error h on off) ⟨hx.of_error h, ?_⟩
    rintro _ ⟨⟩

theorem after_transition (x : Step ω EfiError Unit) (on off : RegionState) (s : IplState ω) :
    (Step.after (onWindow (SmramTable.transition x on off)) s).machine =
      { s.machine with world := Step.after x s.machine.world } := by
  cases h : x s.machine.world with
  | ok _ w => rw [Step.after_of_ok h, Step.after_of_ok (transition_of_ok h on off)]
  | error e w => rw [Step.after_of_error h, Step.after_of_error (transition_of_error h on off)]

end

theorem closeWindow_eq (parts : IplParts ω) (s : IplState ω) :
    closeWindow parts s = .ok () (Step.after (onWindow (SmramTable.closeAll parts.access)) s) := by
  have hclose := transition_returns (parts.access.unlessLocked_returns parts.access.hide
    s.machine.world) RegionState.closed RegionState.opened
  exact Step.ignoringError_of_returns (hclose.mono fun _ _ hr => hr.1)

/-- Nothing was done that would have to be undone: the window has not been closed, and the record of
the core lists no ranges. -/
structure Resting (core : UInt64) (s : IplState (Noted ω (IplCall ω))) : Prop where
  quiet : s.All IplCall.Quiet
  ranges : (s.machine.cores core).ranges = (0, 0)

/-- The last thing done was to close the window, or to find it locked. -/
def Closed (a : SmramAccess ω) (core : UInt64) (m : Machine (Noted ω (IplCall ω))) : Prop :=
  (m.cores core).ranges = (0, 0) ∧ ∃ left before, m.world.world = Step.after a.closeWindow left ∧
    m.world.calls = a.hideCalls left ++ before ∧
    ∀ call ∈ before, call.Quiet

def Started (parts : IplParts ω) (list : Bytes) (m : Machine (Noted ω (IplCall ω))) : Prop :=
  ∃ entryPoint found before, m.world.calls = .startCore entryPoint list found :: before ∧
    parts.launcher.startCore entryPoint list found = (Status.success, m.bare) ∧
    ∀ call ∈ before, call.Quiet

/-- How an attempt to load ends that keeps the window open. -/
def Attempted (parts : IplParts ω) (list : Bytes) (core : UInt64)
    (r : Except (Fault EfiError) Unit) (s : IplState (Noted ω (IplCall ω))) : Prop :=
  match r with
  | .ok () => Started parts list s.machine
  | .error (.error _) => Resting core s
  | .error (.halt _) => True

section
variable {parts : IplParts ω} {core : UInt64} {s : IplState (Noted ω (IplCall ω))}

theorem abandon_closes (hs : Resting core s) : Ends (abandon parts.noting) s fun r t =>
    r = .error (.error .unsupported) ∧ Closed parts.access core t.machine := by
  have hworld : Step.after parts.noting.access.closeWindow s.machine.world =
      ⟨Step.after parts.access.closeWindow s.machine.world.world,
        parts.access.hideCalls s.machine.world.world ++ s.machine.world.calls⟩ :=
    SmramAccess.after_unlessLocked_call parts.access.hide parts.access.noting_mirrors .hide
      s.machine.world
  refine Ends.bind_of_ok (closeWindow_eq parts.noting s) ⟨rfl, ?_⟩
  rw [SmramTable.closeAll, after_transition, hworld]
  exact ⟨hs.ranges, s.machine.world.world, s.machine.world.calls, rfl, rfl, hs.quiet⟩

theorem cacheRange_unfailing (q : IplParts ω) (index : Nat) : Unfailing (cacheRange q index) := by
  refine Unfailing.get_bind fun _ => Unfailing.bind (Unfailing.ofHalting _) fun region => ?_
  cases region with
  | none => exact Unfailing.pure _
  | some region => exact Unfailing.ignoringError _

theorem cacheRange_rests (parts : IplParts ω) (index : Nat) :
    Keeps (Resting core) (cacheRange parts.noting index) := by
  refine Keeps.get_bind fun s => Keeps.bind (Keeps.ofFallible _) fun region => ?_
  cases region with
  | none => exact Keeps.pure _
  | some region =>
    refine Keeps.ignoringError fun s hs => Ends.focus (Ends.focus ?_)
    have hquiet (w : ω) : IplCall.Quiet (.setAttributes region.1 region.2 .writeBack w) := trivial
    exact (Noted.call_keeps hquiet _ s.machine.world hs.quiet).mono fun _ _ hall => ⟨hall, hs.ranges⟩

theorem placeAndStart_attempts (parts : IplParts ω) (p : PeImage) (image : Bytes)
    (destination : UInt64) (list : HobList) (core : UInt64) {m : Machine (Noted ω (IplCall ω))}
    (hm : m.All IplCall.Quiet) :
    Ends (placeAndStart parts.noting p image destination list core) m fun r t =>
      (r = .ok () → Started parts list.toBytes t) ∧ t.All IplCall.Quiet := by
  unfold placeAndStart
  cases alignUp destination (max p.sectionAlignment.toUInt64 1) with
  | error e => exact ⟨nofun, hm⟩
  | ok base =>
    refine Ends.ofFallible_bind (fun placed _ => ?_) fun _ _ => ⟨nofun, hm⟩
    have hwrite : IplCall.Quiet (.writeImage base placed m.bare) := trivial
    refine Ends.bind (R := fun _ => Machine.All IplCall.Quiet)
      (Ends.ofAttempt (Machine.call_ends hm hwrite _)) (fun _ t ht => ?_) fun _ _ ht => ⟨nofun, ht⟩
    refine Ends.bind (R := fun _ => Machine.All IplCall.Quiet)
      (Ends.modify (List.forall_mem_cons.mpr ⟨trivial, ht⟩)) (fun _ t ht => ?_) fun _ _ ht => ⟨nofun, ht⟩
    refine Ends.ofFallible_bind (fun entryPoint _ => ?_) fun _ _ => ⟨nofun, ht⟩
    refine Ends.bind (R := fun _ => Machine.All IplCall.Quiet) (Ends.modify ht)
      (fun _ t ht => ?_) fun _ _ ht => ⟨nofun, ht⟩
    have hcalls : ∀ call ∈ .startCore entryPoint list.toBytes t.bare :: t.world.calls,
        IplCall.Quiet call := List.forall_mem_cons.mpr ⟨trivial, ht⟩
    refine Ends.get_bind (Ends.bind_of_ok rfl (Ends.ofFallible ⟨fun hstatus => ?_, hcalls⟩))
    refine ⟨entryPoint, t.bare, t.world.calls, rfl, ?_, ht⟩
    have hsuccess : (parts.launcher.startCore entryPoint list.toBytes t.bare).1 = Status.success :=
      Status.eq_success_of_ofExcept hstatus
    exact Prod.ext hsuccess rfl

theorem giveUp_unfailing (core : UInt64) (carved : Option Carveout) :
    Unfailing (giveUp core carved : Step (IplState ω) EfiError Unit) := by
  have hclear : Unfailing (onMachine (updateCore core fun r => { r with ranges := (0, 0) }) :
      Step (IplState ω) EfiError Unit) := Unfailing.focus (Unfailing.modify _)
  cases carved with
  | none => exact hclear
  | some c =>
    have hrestore := (SmramTable.restore_unfailing c).mapError BootError.toEfi
    exact Unfailing.bind (Unfailing.focus hrestore) fun _ => hclear

theorem giveUp_rests (core : UInt64) (carved : Option Carveout) (hs : s.All IplCall.Quiet) :
    Ends (giveUp core carved) s fun r t => r = .ok () → Resting core t := by
  have hclear {t : IplState (Noted ω (IplCall ω))} (ht : t.All IplCall.Quiet) :
      Ends (onMachine (updateCore core fun r => { r with ranges := (0, 0) }) :
        Step (IplState (Noted ω (IplCall ω))) EfiError Unit) t fun r t => r = .ok () → Resting core t := by
    refine Ends.focus (Ends.modify fun _ => ⟨ht, ?_⟩)
    rw [Machine.cores_updateCore]
  cases carved with
  | none => exact hclear hs
  | some c =>
    have hrestore : Ends (onTable (Step.mapError BootError.toEfi (SmramTable.restore c))) s
        fun _ t => t.All IplCall.Quiet :=
      Ends.focus (Ends.intro (fun _ _ _ => hs) fun _ _ _ => hs)
    refine hrestore.bind (fun _ t ht => hclear ht) fun e t _ => ?_
    rintro ⟨⟩

theorem Resting.attempted (hs : Resting core s) (list : Bytes) (e : Fault EfiError) :
    Attempted parts list core (.error e) s := by
  cases e with
  | error e => exact hs
  | halt why => trivial

theorem executeCore_attempts (parts : IplParts ω) (index : Nat) (range : SmramRange) (list : HobList)
    (volumes : List MappedVolume) (hs : Resting core s) :
    Ends (executeCore parts.noting index range list volumes core) s
      (Attempted parts list.toBytes core) := by
  refine (executeCore_executing parts.noting index range list volumes core s).mono fun r t hrun => ?_
  have hplace {p : PeImage} {image : Bytes} {destination volume : UInt64} {final : SmramTable} :
      Ends (onMachine (placeAndStart parts.noting p image destination list core))
        (readied core volume { s with table := final }) fun r t =>
          (r = .ok () → Started parts list.toBytes t.machine) ∧ t.All IplCall.Quiet :=
    Ends.focus (placeAndStart_attempts parts p image destination list core hs.quiet)
  cases hrun with
  | missing _ => exact hs.attempted _ _
  | unreadable _ _ => exact hs
  | @unplaced _ _ _ e final _ _ _ =>
    have hfinal : Resting core { s with table := final } := ⟨hs.quiet, hs.ranges⟩
    exact hfinal.attempted _ e
  | started _ hstart => exact (hplace.of_ok hstart).1 rfl
  | stopped _ _ => trivial
  | failed _ hstart hgiven =>
    exact (giveUp_rests core _ (hplace.of_error hstart).2).of_ok hgiven rfl
  | lost _ _ hgiven =>
    obtain ⟨why, rfl⟩ := (giveUp_unfailing core _).halts hgiven
    trivial

def Finished (parts : IplParts ω) (list : Bytes) (core : UInt64) (r : Except (Fault EfiError) Unit)
    (m : Machine (Noted ω (IplCall ω))) : Prop :=
  match r with
  | .ok () => Started parts list m
  | .error (.error e) => e = .unsupported ∧ Closed parts.access core m
  | .error (.halt _) => True

theorem openAll_rests (parts : IplParts ω) {w : ω} (hs : Resting core s)
    (hopened : parts.access.openWindow s.machine.world.world = .ok () w) :
    Ends (onWindow (SmramTable.openAll parts.noting.access)) s fun r t =>
      r = .ok () ∧ Resting core t := by
  have hopen : onWindow (SmramTable.openAll parts.noting.access) s = .ok () _ :=
    transition_of_ok (SmramAccess.noting_openWindow hopened) _ _
  exact Ends.of_eq_ok hopen ⟨rfl, List.forall_mem_cons.mpr ⟨trivial, hs.quiet⟩, hs.ranges⟩

theorem loadInto_finishes (parts : IplParts ω) (list : HobList) (volumes : List MappedVolume)
    {w : ω} (hs : Resting core s)
    (hopened : parts.access.openWindow s.machine.world.world = .ok () w) :
    Ends (loadInto parts.noting list volumes core) s fun r t =>
      Finished parts list.toBytes core r t.machine := by
  refine (loadInto_loading parts.noting list volumes core s).mono fun r t hrun => ?_
  have hopen := openAll_rests parts hs hopened
  have hpicked {index : Nat} {range : SmramRange} {t : IplState (Noted ω (IplCall ω))}
      (h : Picked parts.noting index range s t) :
      Ends (cacheRange parts.noting index) t fun _ u => Resting core u :=
    cacheRange_rests parts index t (hopen.of_ok h.opened).2
  have hclose {t : IplState (Noted ω (IplCall ω))} (ht : Resting core t) :
      Finished parts list.toBytes core (Step.answer (abandon parts.noting) t)
        (Step.after (abandon parts.noting) t).machine := by
    obtain ⟨hunsupported, hclosed⟩ := Ends.iff_answer.mp (abandon_closes ht)
    rw [hunsupported]
    exact ⟨rfl, hclosed⟩
  cases hrun with
  | refused hrefused => cases (hopen.of_error hrefused).1
  | halted _ _ => trivial
  | unfit ht _ => exact hclose (hopen.of_ok ht).2
  | uncached _ hcache =>
    obtain ⟨why, rfl⟩ := (cacheRange_unfailing parts.noting _).halts hcache
    trivial
  | loaded h hcache hexecute =>
    exact (executeCore_attempts parts _ _ list volumes ((hpicked h).of_ok hcache)).of_ok hexecute
  | stopped _ _ _ => trivial
  | failed h hcache hexecute =>
    exact hclose
      ((executeCore_attempts parts _ _ list volumes ((hpicked h).of_ok hcache)).of_error hexecute)

end

def fresh (table : SmramTable) (machine : Machine ω) : IplState (Noted ω (IplCall ω)) :=
  ⟨table, (machine.noted []).newCore.1⟩

theorem fresh_rests (table : SmramTable) (machine : Machine ω) :
    Resting machine.free (fresh table machine) := by
  have hnew : (fresh table machine).machine.cores machine.free = .new := if_pos rfl
  exact ⟨List.forall_mem_nil _, by rw [hnew]; rfl⟩

theorem loadCore_noted (parts : IplParts ω) (volumes : List MappedVolume) {hobs : HobList}
    (machine : Machine ω) {table : SmramTable} (hreported : SmramTable.ofHobs hobs = .ok table) :
    let run := loadInto parts.noting (hobs.publishCore machine.free) volumes machine.free
    loadCore parts volumes (hobs, machine) = answered machine.free (hobs.publishCore machine.free)
        (Step.mapState IplState.bare (run (fresh table machine))) ∧
      loadCalls parts volumes hobs machine =
        (Step.after run (fresh table machine)).machine.world.calls := by
  intro run
  have htable : SmramTable.ofHobs (hobs.publishCore machine.free) = .ok table :=
    (SmramTable.ofHobs_publishCore hobs machine.free).trans hreported
  have hnoted : loadCore parts.noting volumes (hobs, machine.noted []) =
      answered machine.free (hobs.publishCore machine.free) (run (fresh table machine)) :=
    loadCore_of_ok htable
  have hbare : loadCore parts volumes (hobs, machine) = _ :=
    loadCore_follows parts.noting_mirrors volumes (hobs, machine.noted [])
  rw [hbare, loadCalls, hnoted, answered_mapState]
  refine ⟨rfl, ?_⟩
  unfold Step.after
  cases run (fresh table machine) <;> rfl

/-- A load that fails with the window open reports that a core is unsupported. The last thing that it
does is to close the window, once, unless it has been locked in the meantime, and the record that it
published lists no ranges. A load that succeeds closes nothing: the last thing that it does is to start
the core, which reports success. -/
theorem loadCore_cleans_up (parts : IplParts ω) (volumes : List MappedVolume) (hobs : HobList)
    (machine : Machine ω) {table : SmramTable} {w : ω} (hreported : SmramTable.ofHobs hobs = .ok table)
    (hopened : parts.access.openWindow machine.world = .ok () w) :
    (∀ e t, loadCore parts volumes (hobs, machine) = .error (.error e) t →
      e = .unsupported ∧ t.1 = hobs.publishCore machine.free ∧
      (t.2.cores machine.free).ranges = (0, 0) ∧
      ∃ left before, t.2.world = Step.after parts.access.closeWindow left ∧
        loadCalls parts volumes hobs machine = parts.access.hideCalls left ++ before ∧
        ∀ call ∈ before, call.Quiet) ∧
    (∀ core t, loadCore parts volumes (hobs, machine) = .ok core t →
      core = machine.free ∧ t.1 = hobs.publishCore machine.free ∧
      ∃ entryPoint found before, loadCalls parts volumes hobs machine =
          .startCore entryPoint (hobs.publishCore machine.free).toBytes found :: before ∧
        parts.launcher.startCore entryPoint (hobs.publishCore machine.free).toBytes found =
          (Status.success, t.2) ∧
        ∀ call ∈ before, call.Quiet) := by
  have hends := loadInto_finishes parts (hobs.publishCore machine.free) volumes
    (fresh_rests table machine) hopened
  obtain ⟨hload, hnotes⟩ := loadCore_noted parts volumes machine hreported
  rw [hload, hnotes]
  cases hinto : loadInto parts.noting (hobs.publishCore machine.free) volumes machine.free
      (fresh table machine) with
  | ok _ s =>
    rw [Step.after_of_ok hinto]
    refine ⟨nofun, ?_⟩
    rintro core t ⟨⟩
    obtain ⟨entryPoint, found, before, hcalls, hsuccess, hquiet⟩ := hends.of_ok hinto
    exact ⟨rfl, rfl, entryPoint, found, before, hcalls, hsuccess, hquiet⟩
  | error why s =>
    rw [Step.after_of_error hinto]
    refine ⟨?_, nofun⟩
    rintro e t ⟨⟩
    obtain ⟨hunsupported, hranges, left, before, hworld, hcalls, hquiet⟩ := hends.of_error hinto
    exact ⟨hunsupported, rfl, hranges, left, before, hworld, hcalls, hquiet⟩

/-- A core that reports a warning, and locks the window before it does if `locking`. The world says
whether the window is locked. -/
def declining (locking : Bool) : IplParts Bool where
  config := {}
  reader := Bench.peReader
  access := ⟨pure (), pure (), pure (), fun _ => true, id⟩
  cache := ⟨pure (), fun _ _ _ => pure ()⟩
  launcher := ⟨fun _ _ => pure (), fun _ _ m => m, fun _ _ m => (1, { m with world := locking })⟩

theorem loadCore_cleans_up_declined :
    (∃ t before, loadCore (declining false) [⟨0, bareVolume⟩] (oneRangeHobs, .new 0x1000 false) =
        .error (.error .unsupported) t ∧
      (t.2.cores 0x1000).ranges = (0, 0) ∧
      loadCalls (declining false) [⟨0, bareVolume⟩] oneRangeHobs (.new 0x1000 false) =
        .hide false :: before ∧ ∀ call ∈ before, call.Quiet) ∧
    (∃ t, loadCore (declining true) [⟨0, bareVolume⟩] (oneRangeHobs, .new 0x1000 false) =
        .error (.error .unsupported) t ∧
      ∀ call ∈ loadCalls (declining true) [⟨0, bareVolume⟩] oneRangeHobs (.new 0x1000 false),
        call.Quiet) := by
  have hclose (locking left : Bool) :
      Step.after (declining locking).access.closeWindow left = left := by
    cases left <;> rfl
  have hend (locking : Bool) : ∃ t, loadCore (declining locking) [⟨0, bareVolume⟩]
      (oneRangeHobs, .new 0x1000 false) = .error (.error .unsupported) t ∧ t.2.world = locking := by
    have hanswer : ∀ locking, Step.answer (loadCore (declining locking) [⟨0, bareVolume⟩])
          (oneRangeHobs, .new 0x1000 false) = .error (.error .unsupported) ∧
        (Step.after (loadCore (declining locking) [⟨0, bareVolume⟩])
          (oneRangeHobs, .new 0x1000 false)).2.world = locking := by decide +kernel
    obtain ⟨herror, hworld⟩ := hanswer locking
    obtain ⟨t, ht⟩ := Step.answer_eq_error.mp herror
    rw [Step.after_of_error ht] at hworld
    exact ⟨t, ht, hworld⟩
  obtain ⟨t, ht, hunlocked⟩ := hend false
  obtain ⟨u, hu, hlocked⟩ := hend true
  obtain ⟨hfails, -⟩ := loadCore_cleans_up (declining false) [⟨0, bareVolume⟩] oneRangeHobs
    (.new 0x1000 false) oneRange_chosen.reported rfl
  obtain ⟨-, -, hranges, left, before, hworld, hcalls, hquiet⟩ := hfails _ t ht
  obtain ⟨hfails, -⟩ := loadCore_cleans_up (declining true) [⟨0, bareVolume⟩] oneRangeHobs
    (.new 0x1000 false) oneRange_chosen.reported rfl
  obtain ⟨-, -, -, left', before', hworld', hcalls', hquiet'⟩ := hfails _ u hu
  rw [hclose, hunlocked] at hworld
  rw [hclose, hlocked] at hworld'
  subst hworld hworld'
  refine ⟨⟨t, before, ht, hranges, hcalls, hquiet⟩, u, hu, ?_⟩
  rw [hcalls']
  exact hquiet'

end Ipl
end PlatformInit
