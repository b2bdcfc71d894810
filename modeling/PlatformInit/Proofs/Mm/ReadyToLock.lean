import PlatformInit.Proofs.Mm.LockTransition

/-!
SMRAM is locked once.

Two rules lead to the same transition, a start tries one of them itself and may be repeated, and the
failures on the way are passed over. In no run is the chipset asked to lock twice, or the core told
twice.
-/
set_option autoImplicit false
namespace PlatformInit

open Step (Ends Returns Unfailing)

namespace Gateway
variable {ω : Type} {p : GatewayParts ω} {g : Gateway ω}

/-! A start fails only for want of a core. -/

theorem hasHappened_unfailing (p : GatewayParts ω) (source : EventSource) :
    Unfailing (hasHappened p source) := by
  intro g
  unfold Ends
  rw [hasHappened_eq]
  exact fun _ => ⟨_, rfl⟩

theorem readyToLock_unfailing (p : GatewayParts ω) (source : EventSource) :
    Unfailing (readyToLock p source) := by
  refine Unfailing.get_bind fun g => Unfailing.ite (Unfailing.pure _) ?_
  refine Unfailing.bind (hasHappened_unfailing p source) fun _ => Unfailing.ite ?_ (Unfailing.pure _)
  refine Unfailing.bind (Unfailing.ignoringError _) fun _ => ?_
  refine Unfailing.bind (Unfailing.modify _) fun _ => ?_
  exact Unfailing.bind (notifyCore_unfailing _) fun _ => Unfailing.modify _

theorem introduce_unfailing (p : GatewayParts ω) (hobs : HobList) (systemTable : UInt64) :
    Unfailing (introduce p hobs systemTable) :=
  Unfailing.bind (notifyCore_unfailing _) fun _ =>
    Unfailing.bind (Unfailing.forM (fun _ => notifyCore_unfailing _) _) fun _ => notifyCore_unfailing _

theorem start_unfailing (p : GatewayParts ω) {hobs : HobList} (systemTable : UInt64) (g : Gateway ω)
    (hcore : (hobs.dataOf? Guid.mmCoreData).isSome = true) :
    Ends (start p hobs systemTable) g fun r _ => Returns r → ∃ a, r = .ok a := by
  have hstart := start_eq p hobs systemTable g
  rw [if_pos hcore] at hstart
  exact Ends.congr hstart (Unfailing.bind (readyToLock_unfailing p _)
    (fun _ => introduce_unfailing p hobs systemTable) _)

theorem started_eq {op : GatewayOp} (hreturns : Returns (Step.answer (perform p op) g)) :
    GatewayStep.started p ⟨op, g⟩ = op.opens := by
  cases op with
  | signal source => rfl
  | start hobs systemTable =>
    by_cases hcore : (hobs.dataOf? Guid.mmCoreData).isSome = true
    · obtain ⟨a, ha⟩ := Ends.iff_answer.mp (start_unfailing p systemTable g hcore) hreturns
      exact (Step.succeeds_of_answer ha).trans hcore.symm
    · have hstart := start_eq p hobs systemTable g
      rw [if_neg hcore] at hstart
      refine Eq.trans ?_ (Bool.eq_false_iff.mpr hcore).symm
      change Step.succeeds (start p hobs systemTable) g = false
      rw [Step.succeeds, hstart]

/-! Without rules in force. -/

theorem signal_idle (p : GatewayParts ω) {source : EventSource}
    (h : ∀ entry, rule? source = some entry → g.isSubscribed entry.2 = false) :
    perform p (.signal source) g = .ok () g ∧ calls p (.signal source) g = [] := by
  have hidle {κ : Type} (q : GatewayParts κ) (t : Gateway κ)
      (ht : ∀ i, t.isSubscribed i = g.isSubscribed i) : signal q source t = .ok () t := by
    rw [signal_eq]
    cases hrule : rule? source with
    | none => rfl
    | some entry =>
      refine (Step.bind_of_ok rfl).trans ?_
      rw [ht, h entry hrule]
      rfl
  refine ⟨hidle p g fun _ => rfl, ?_⟩
  have hnoted : perform p.noting (.signal source) (g.noted []) = .ok () (g.noted []) :=
    hidle p.noting (g.noted []) fun _ => rfl
  rw [calls, Step.after_of_ok hnoted]
  rfl

/-! Runs. -/

section
variable {env : Communicator ω → Communicator ω → Prop} {comm : Communicator ω}
  {steps : List (GatewayStep ω)}

theorem Run.unstarted (hrun : Run p env (.new comm) steps g)
    (h : ∀ s ∈ steps, s.started p = false) :
    g.subscribed = List.replicate EventRule.all.length false := by
  induction hrun with
  | start => rfl
  | outside _ comm _ ih => exact ih h
  | @operation steps g _ op hreturns ih =>
    obtain ⟨hop, hsteps⟩ := List.forall_mem_cons.mp h
    rw [started_eq hreturns] at hop
    have hopened : op.opened g.subscribed = List.replicate EventRule.all.length false :=
      (if_neg (Bool.eq_false_iff.mp hop)).trans (ih hsteps)
    cases perform_settles p g op with
    | rests _ _ hsubscribed _ => exact hsubscribed.trans hopened
    | locks _ _ hsubscribed _ =>
      rw [hsubscribed, hopened]
      rfl

/-- The calls about the lock in a list of operations, newest first. -/
def lockCalls (p : GatewayParts ω) (steps : List (GatewayStep ω)) : List (CommCall ω) :=
  (steps.flatMap (GatewayStep.calls p)).filter CommCall.aboutLock

/-- At most one attempt to lock, and at most one message about it. -/
def Single (made : List (CommCall ω)) : Prop :=
  made.countP CommCall.isLock ≤ 1 ∧ made.countP CommCall.announces ≤ 1

theorem single_filter {made : List (CommCall ω)} :
    Single (made.filter CommCall.aboutLock) ↔ Single made := by
  have hlock (call : CommCall ω) : (call.isLock && call.aboutLock) = call.isLock := by
    rw [CommCall.aboutLock]
    cases call.isLock <;> rfl
  have hannounces (call : CommCall ω) : (call.announces && call.aboutLock) = call.announces := by
    rw [CommCall.aboutLock]
    cases call.announces <;> simp
  simp only [Single, List.countP_filter, hlock, hannounces]

theorem single_transition (p : GatewayParts ω) (source : EventSource) (g : Gateway ω) :
    Single ((announcement? p source g).toList ++ lockAttempt p source g) := by
  have hattempt : (lockAttempt p source g).countP CommCall.isLock ≤ 1 ∧
      (lockAttempt p source g).countP CommCall.announces = 0 := by
    unfold lockAttempt
    split
    · exact ⟨Nat.zero_le _, rfl⟩
    · exact ⟨Nat.le_refl _, rfl⟩
  have hannounced : (announcement? p source g).toList.countP CommCall.isLock = 0 ∧
      (announcement? p source g).toList.countP CommCall.announces ≤ 1 := by
    cases hcall : announcement? p source g with
    | none => exact ⟨rfl, Nat.zero_le _⟩
    | some call =>
      obtain ⟨hlock, -⟩ :=
        CommCall.aboutLock_of_recipient? (Communicator.recipient?_of_signalCall? hcall)
      refine ⟨?_, List.countP_le_length⟩
      simp [hlock]
  rw [Single, List.countP_append, List.countP_append]
  omega

theorem Run.single (hrun : Run p env (.new comm) steps g) :
    (g.locked = false → lockCalls p steps = []) ∧ Single (lockCalls p steps) := by
  induction hrun with
  | start => exact ⟨fun _ => rfl, Nat.zero_le _, Nat.zero_le _⟩
  | outside _ comm _ ih => exact ih
  | @operation steps g _ op hreturns ih =>
    have hcons : lockCalls p (⟨op, g⟩ :: steps) =
        (calls p op g).filter CommCall.aboutLock ++ lockCalls p steps := by
      rw [lockCalls, List.flatMap_cons, List.filter_append]
      rfl
    rw [hcons]
    cases perform_settles p g op with
    | rests _ hlocked _ hnotes =>
      rw [hnotes, hlocked]
      exact ih
    | locks hlocks hlocked _ hnotes =>
      rw [hnotes, ih.1 hlocks.unlocked, List.append_nil]
      refine ⟨fun hunlocked => ?_, single_transition p op.source g⟩
      rw [hlocked hreturns] at hunlocked
      cases hunlocked

/-- In a run of any length, with any collaborators and whatever happens in between, the chipset is
asked to lock at most once, and the core is told at most once. Both are done by the one operation
that locks the gateway: it asks a chipset that is not locked, and then tells the core if the request
can be put before it. An operation locks when the ready-to-lock protocol is installed or the boot is
ready and the rule is in force, and the lock stays. Before the first start that succeeds, no event
has any effect. -/
theorem run_locks_once (hrun : Run p env (.new comm) steps g) (op : GatewayOp) :
    Single (calls p op g ++ steps.flatMap (GatewayStep.calls p)) ∧
    (Locks p g op → (calls p op g).filter CommCall.aboutLock =
      (announcement? p op.source g).toList ++ lockAttempt p op.source g) ∧
    (¬Locks p g op → (calls p op g).filter CommCall.aboutLock = []) ∧
    (Returns (Step.answer (perform p op) g) →
      ((Step.after (perform p op) g).locked = true ↔ g.locked = true ∨ Locks p g op)) ∧
    (Locks p g op → (p.isInstalled Guid.readyToLock g.world).1 = true ∨
      op = .signal (.group Guid.readyToBoot) ∧ g.isSubscribed 3 = true) ∧
    ((∀ s ∈ steps, s.started p = false) → ∀ source,
      perform p (.signal source) g = .ok () g ∧ calls p (.signal source) g = []) := by
  have hsettles := perform_settles p g op
  obtain ⟨hunlocked, hsingle⟩ := hrun.single
  refine ⟨?_, fun hlocks => ?_, fun hlocks => ?_, fun hreturns => ?_, fun hlocks => ?_,
    fun hsteps source => signal_idle p fun entry hentry => ?_⟩
  · rw [← single_filter, List.filter_append]
    change Single (_ ++ lockCalls p steps)
    cases hsettles with
    | rests _ _ _ hnotes =>
      rw [hnotes]
      exact hsingle
    | locks hlocks _ _ hnotes =>
      rw [hnotes, hunlocked hlocks.unlocked, List.append_nil]
      exact single_transition p op.source g
  · cases hsettles with
    | rests hrests => exact absurd hlocks hrests
    | locks _ _ _ hnotes => exact hnotes
  · cases hsettles with
    | rests _ _ _ hnotes => exact hnotes
    | locks hlocks' => exact absurd hlocks' hlocks
  · cases hsettles with
    | rests hrests hlocked => rw [hlocked, or_iff_left hrests]
    | locks hlocks hlocked => exact ⟨fun _ => .inr hlocks, fun _ => hlocked hreturns⟩
  · cases hlocks.trigger with
    | started _ hinstalled => exact .inl hinstalled
    | installed _ hinstalled => exact .inl hinstalled
    | readyToBoot hsubscribed => exact .inr ⟨rfl, hsubscribed⟩
  · rw [isSubscribed, hrun.unstarted hsteps, List.getD_eq_getElem?_getD, List.getElem?_replicate]
    split <;> rfl

end

/-- A chipset that locks, and a core that acknowledges every request. The world says whether the
ready-to-lock protocol is installed, and whether the chipset is locked. -/
def acknowledged : GatewayParts (Bool × Bool) where
  comm := ⟨0x100, ⟨pure (), pure (), fun w => .ok () (w.1, true), fun w => !w.2, fun w => w.2⟩,
    some ⟨fun _ m => .ok () m⟩, none, 1⟩
  isInstalled guid w := (guid = Guid.readyToLock && w.1, w)

def lockStays (c c' : Communicator (Bool × Bool)) : Prop :=
  c.machine.world.2 = true → c'.machine.world.2 = true

instance (c c' : Communicator (Bool × Bool)) : Decidable (lockStays c c') :=
  inferInstanceAs (Decidable (_ → _))

def handOff : HobList := [.guidExtension Guid.mmCoreData (le64 0x100)]

def unstarted : Gateway (Bool × Bool) :=
  .new (.new [.new 0x1000 7 64]
    ((Machine.new 0 (false, false)).putCore 0x100 { CoreRecord.new with registered := true }))

def awaited : Gateway (Bool × Bool) :=
  (Step.after (perform acknowledged (.start handOff 0)) unstarted).withWorld (true, false)

def secured : Gateway (Bool × Bool) :=
  Step.after (perform acknowledged (.signal (.protocol Guid.readyToLock))) awaited

theorem run_secured : Run acknowledged lockStays unstarted
    [⟨.signal (.protocol Guid.readyToLock), awaited⟩, ⟨.start handOff 0, unstarted⟩] secured := by
  refine .succeeding (.outside (.succeeding .start ?_) _ ?_) ?_
  · decide +kernel
  · decide +kernel
  · decide +kernel

theorem run_locks_once_installed :
    secured.locked = true ∧ secured.world = (true, true) ∧
    (lockCalls acknowledged [⟨.signal (.protocol Guid.readyToLock), awaited⟩,
      ⟨.start handOff 0, unstarted⟩]).length = 2 ∧
    Single (calls acknowledged (.signal (.group Guid.readyToBoot)) secured ++
      [⟨.signal (.protocol Guid.readyToLock), awaited⟩, ⟨.start handOff 0, unstarted⟩].flatMap
        (GatewayStep.calls acknowledged)) ∧
    calls acknowledged (.signal (.group Guid.readyToBoot)) unstarted = [] := by
  obtain ⟨hsingle, -⟩ := run_locks_once run_secured (.signal (.group Guid.readyToBoot))
  have hstart : Run acknowledged lockStays unstarted [] unstarted := .start
  obtain ⟨-, -, -, -, -, hidle⟩ := run_locks_once hstart (.signal (.group Guid.readyToBoot))
  exact ⟨by decide +kernel, by decide +kernel, by decide +kernel, hsingle,
    (hidle (List.forall_mem_nil _) _).2⟩

end Gateway
end PlatformInit
