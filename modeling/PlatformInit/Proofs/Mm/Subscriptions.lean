import PlatformInit.Proofs.Mm.ReadyToLock

/-!
The rules that are in force once SMRAM is locked.

The lock ends the rules that do not outlive it, and no event puts them in force again. A start puts
all rules in force whatever the state is, so it is the starts after the lock that count.
-/
set_option autoImplicit false
namespace PlatformInit

namespace Gateway
variable {ω : Type} {p : GatewayParts ω} {env : Communicator ω → Communicator ω → Prop}
  {comm : Communicator ω} {steps : List (GatewayStep ω)} {g : Gateway ω}

theorem getD_closeSubscriptions {entry : EventRule × Nat} (hentry : entry ∈ EventRule.all.zipIdx)
    (subscribed : List Bool) : (closeSubscriptions subscribed).getD entry.2 false =
      (subscribed.getD entry.2 false && !entry.1.closeOnLock) := by
  have hrule : EventRule.all[entry.2]? = some entry.1 := List.mem_zipIdx_iff_getElem?.mp hentry
  rw [closeSubscriptions, List.getD_eq_getElem?_getD, List.getD_eq_getElem?_getD, List.getElem?_zipWith,
    hrule]
  cases subscribed[entry.2]? <;> rfl

theorem getD_replicate {entry : EventRule × Nat} (hentry : entry ∈ EventRule.all.zipIdx) :
    (List.replicate EventRule.all.length true).getD entry.2 false = true := by
  have hrule : EventRule.all[entry.2]? = some entry.1 := List.mem_zipIdx_iff_getElem?.mp hentry
  obtain ⟨hlt, -⟩ := List.getElem?_eq_some_iff.mp hrule
  rw [List.getD_eq_getElem?_getD, List.getElem?_replicate, if_pos hlt]
  rfl

/-- A locked gateway was locked by one of its operations, and the rules in force are those that the
last start since then, or else the lock, has left in force. -/
theorem Run.locked_since (hrun : Run p env (.new comm) steps g) (hlocked : g.locked = true) :
    ∃ later s earlier, steps = later ++ s :: earlier ∧ Run p env (.new comm) earlier s.found ∧
      Locks p s.found s.op ∧
      g.subscribed = if later.any (GatewayStep.started p) then List.replicate EventRule.all.length true
        else closeSubscriptions (s.op.opened s.found.subscribed) := by
  induction hrun with
  | start => cases hlocked
  | outside _ comm _ ih => exact ih hlocked
  | @operation steps g hrun op hreturns ih =>
    cases perform_settles p g op with
    | locks hlocks _ hsubscribed _ => exact ⟨[], ⟨op, g⟩, steps, rfl, hrun, hlocks, hsubscribed⟩
    | rests _ hsame hsubscribed _ =>
      obtain ⟨later, s, earlier, rfl, hearlier, hlocks, hbefore⟩ := ih (hsame.symm.trans hlocked)
      refine ⟨⟨op, g⟩ :: later, s, earlier, rfl, hearlier, hlocks, ?_⟩
      rw [hsubscribed, GatewayOp.opened, hbefore, List.any_cons, started_eq hreturns]
      cases op.opens <;> rfl

/-- In a locked state the rules that outlive the lock and were in force when it was made are still in
force. Unless the gateway was started once more since then, the other rules are not, and the event
of a dispatch has no effect. A start since then has put all rules in force. -/
theorem run_rules_locked (hrun : Run p env (.new comm) steps g) (hlocked : g.locked = true) :
    ∃ later s earlier, steps = later ++ s :: earlier ∧ Run p env (.new comm) earlier s.found ∧
      Locks p s.found s.op ∧
      (∀ entry ∈ EventRule.all.zipIdx, entry.1.closeOnLock = false →
        (s.op.opened s.found.subscribed).getD entry.2 false = true → g.isSubscribed entry.2 = true) ∧
      ((∀ t ∈ later, t.started p = false) →
        (∀ entry ∈ EventRule.all.zipIdx, entry.1.closeOnLock = true → g.isSubscribed entry.2 = false) ∧
        perform p (.signal (.group Guid.driverDispatch)) g = .ok () g ∧
        calls p (.signal (.group Guid.driverDispatch)) g = []) ∧
      ((∃ t ∈ later, t.started p = true) →
        ∀ entry ∈ EventRule.all.zipIdx, g.isSubscribed entry.2 = true) := by
  obtain ⟨later, s, earlier, rfl, hearlier, hlocks, hsubscribed⟩ := hrun.locked_since hlocked
  have hopened (hany : later.any (GatewayStep.started p) = true) (entry : EventRule × Nat)
      (hentry : entry ∈ EventRule.all.zipIdx) : g.isSubscribed entry.2 = true := by
    rw [isSubscribed, hsubscribed, if_pos hany, getD_replicate hentry]
  have hclosed (hany : ¬later.any (GatewayStep.started p) = true) (entry : EventRule × Nat)
      (hentry : entry ∈ EventRule.all.zipIdx) : g.isSubscribed entry.2 =
        ((s.op.opened s.found.subscribed).getD entry.2 false && !entry.1.closeOnLock) := by
    rw [isSubscribed, hsubscribed, if_neg hany, getD_closeSubscriptions hentry]
  refine ⟨later, s, earlier, rfl, hearlier, hlocks, fun entry hentry hstays hwas => ?_, fun hnone => ?_,
    fun hsome => hopened (List.any_eq_true.mpr hsome)⟩
  · by_cases hany : later.any (GatewayStep.started p) = true
    · exact hopened hany entry hentry
    · rw [hclosed hany entry hentry, hwas, hstays]
      rfl
  · have hany : ¬later.any (GatewayStep.started p) = true := by
      rw [List.any_eq_true]
      rintro ⟨t, ht, hstarted⟩
      rw [hnone t ht] at hstarted
      cases hstarted
    have hends (entry : EventRule × Nat) (hentry : entry ∈ EventRule.all.zipIdx)
        (hends : entry.1.closeOnLock = true) : g.isSubscribed entry.2 = false := by
      rw [hclosed hany entry hentry, hends, Bool.not_true, Bool.and_false]
    refine ⟨hends, signal_idle p fun entry hrule => ?_⟩
    obtain ⟨hentry, -⟩ := rule?_eq_some hrule
    cases hrule
    exact hends _ hentry rfl

theorem run_rules_locked_secured :
    secured.locked = true ∧ secured.isSubscribed 1 = true ∧ secured.isSubscribed 2 = false ∧
      calls acknowledged (.signal (.group Guid.driverDispatch)) secured = [] := by
  have hlocked : secured.locked = true := by decide +kernel
  obtain ⟨later, s, earlier, hsteps, -, -, hstays, hends, -⟩ := run_rules_locked run_secured hlocked
  have hsignal : s.op.opened s.found.subscribed = awaited.subscribed ∧ later = [] ∨
      s.op.opened s.found.subscribed = List.replicate EventRule.all.length true ∧
        later = [⟨.signal (.protocol Guid.readyToLock), awaited⟩] := by
    cases later with
    | nil =>
      cases hsteps
      exact .inl ⟨rfl, rfl⟩
    | cons t later =>
      obtain ⟨rfl, hrest⟩ := List.cons.inj hsteps
      cases later with
      | nil =>
        cases hrest
        exact .inr ⟨rfl, rfl⟩
      | cons _ _ => exact absurd (congrArg List.length hrest) (by simp)
  have hopen : awaited.subscribed = List.replicate EventRule.all.length true := by decide +kernel
  have hwas : s.op.opened s.found.subscribed = List.replicate EventRule.all.length true := by
    obtain ⟨hwas, -⟩ | ⟨hwas, -⟩ := hsignal
    · exact hwas.trans hopen
    · exact hwas
  have hunstarted : ∀ t ∈ later, t.started acknowledged = false := by
    obtain ⟨-, rfl⟩ | ⟨-, rfl⟩ := hsignal
    · exact List.forall_mem_nil _
    · exact List.forall_mem_singleton.mpr rfl
  obtain ⟨hclosed, -, hcalls⟩ := hends hunstarted
  refine ⟨hlocked, ?_, ?_, hcalls⟩
  · exact hstays (⟨.group Guid.endOfDxe, false, .forward⟩, 1) (by decide) rfl (by rw [hwas]; rfl)
  · exact hclosed (⟨.group Guid.driverDispatch, true, .dispatch⟩, 2) (by decide) rfl

/-- After the lock, when the gateway is started once more. -/
def restarted : Gateway (Bool × Bool) := Step.after (perform acknowledged (.start handOff 0)) secured

/-- A start after the lock puts the rule about dispatches in force, and the event reaches the core. -/
theorem dispatch_after_lock :
    Run acknowledged lockStays unstarted [⟨.start handOff 0, secured⟩,
      ⟨.signal (.protocol Guid.readyToLock), awaited⟩, ⟨.start handOff 0, unstarted⟩] restarted ∧
    restarted.locked = true ∧ restarted.isSubscribed 2 = true ∧
    (calls acknowledged (.signal (.group Guid.driverDispatch)) restarted).map CommCall.recipient? =
      [some Guid.driverDispatch] := by
  refine ⟨.succeeding run_secured ?_, ?_, ?_, ?_⟩
  · decide +kernel
  · decide +kernel
  · decide +kernel
  · decide +kernel

end Gateway
end PlatformInit
