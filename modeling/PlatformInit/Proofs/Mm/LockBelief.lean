import PlatformInit.Proofs.Mm.ReadyToLock
import PlatformInit.Proofs.Mm.GatewayInvariants

/-!
What a locked gateway knows of the chipset.

The gateway counts as locked once it has asked the chipset to lock, whatever the answer was, and does
not ask again. If the chipset has locked, it is locked in every state after that.
-/
set_option autoImplicit false
namespace PlatformInit

open Step (Ends Keeps)

/-- A chipset that has locked satisfies `sealed`, and is locked as long as it does. -/
structure SmramAccess.Seals {ω : Type} (a : SmramAccess ω) (sealed : ω → Prop) : Prop where
  lock : ∀ w w', a.lock w = .ok () w' → sealed w'
  isLocked : ∀ w, sealed w → a.isLocked w = true

namespace Gateway
variable {ω : Type} {p : GatewayParts ω} {sealed : ω → Prop} {g : Gateway ω}

/-- The attempt to lock is refused: the chipset fails, or it only claims to be locked already. -/
def Refused (p : GatewayParts ω) (sealed : ω → Prop) (w : ω) : Prop :=
  (p.comm.access.isLocked w = false ∧ ∃ e w', p.comm.access.lock w = .error e w') ∨
    (p.comm.access.isLocked w = true ∧ ¬sealed w)

theorem lockWindow_sealed (hseals : p.comm.access.Seals sealed) {w : ω}
    (haccepted : ¬Refused p sealed w) : sealed (Step.after p.comm.access.lockWindow w) := by
  unfold SmramAccess.lockWindow
  rw [SmramAccess.after_unlessLocked]
  cases hlocked : p.comm.access.isLocked w with
  | true => exact Classical.byContradiction fun hnot => haccepted (.inr ⟨hlocked, hnot⟩)
  | false =>
    cases hlock : p.comm.access.lock w with
    | ok _ w' =>
      rw [if_neg Bool.false_ne_true, Step.after_of_ok hlock]
      exact hseals.lock w w' hlock
    | error e w' => exact absurd (.inl ⟨hlocked, e, w', hlock⟩) haccepted

variable (hseals : p.comm.access.Seals sealed) (hkeeps : p.KeepsWorld sealed)
include hseals hkeeps

theorem readyToLock_sealed {source : EventSource} (hunlocked : g.locked = false)
    (hhappened : (probe p source g.world).1 = true)
    (haccepted : ¬Refused p sealed (probe p source g.world).2) :
    Ends (readyToLock p source) g fun _ t => sealed t.world := by
  have heq := readyToLock_eq p source g
  rw [if_neg (Bool.eq_false_iff.mp hunlocked), if_pos hhappened] at heq
  have hshut : sealed (shut p source g).world := lockWindow_sealed hseals haccepted
  have htold : Keeps (fun g => sealed g.world)
      (do forward p Guid.readyToLock; modify fun g => { g with locked := true } :
        Step (Gateway ω) EfiError Unit) :=
    Keeps.bind (send_keeps hkeeps _ _) fun _ => Keeps.modify fun _ ht => ht
  exact Ends.congr heq (htold _ hshut)

theorem perform_sealed {op : GatewayOp} (hlocks : Locks p g op)
    (haccepted : ¬Refused p sealed (probe p op.source g.world).2) :
    Ends (perform p op) g fun _ t => sealed t.world := by
  obtain ⟨hunlocked, htrigger⟩ := hlocks
  cases op with
  | signal source =>
    obtain ⟨rule, i, hrule, haction, hsubscribed, hhappened⟩ := triggers_signal_iff.mp htrigger
    obtain ⟨-, rfl⟩ := rule?_eq_some hrule
    have hsignal : perform p (.signal rule.source) = notify p (rule, i) := by
      rw [perform, signal_eq, hrule]
      rfl
    have hnotify := notify_eq p haction i g
    rw [if_pos hsubscribed] at hnotify
    rw [hsignal]
    exact Ends.congr hnotify (readyToLock_sealed hseals hkeeps hunlocked hhappened haccepted)
  | start hobs systemTable =>
    cases htrigger with
    | started hcore hinstalled =>
      have hstart := start_eq p hobs systemTable g
      rw [if_pos hcore] at hstart
      have hintroduce : Keeps (fun g => sealed g.world) (introduce p hobs systemTable) :=
        Keeps.bind (send_keeps hkeeps _ _) fun _ =>
          Keeps.bind (Keeps.forM fun _ _ => send_keeps hkeeps _ _) fun _ => dispatchDrivers_keeps hkeeps
      have hready : Ends (readyToLock p (.protocol Guid.readyToLock))
          { g with subscribed := List.replicate EventRule.all.length true }
          fun _ t => sealed t.world :=
        readyToLock_sealed hseals hkeeps hunlocked hinstalled haccepted
      exact Ends.congr hstart (hready.bind (fun _ t ht => hintroduce t ht) fun _ _ ht => ht)

variable {env : Communicator ω → Communicator ω → Prop} {comm : Communicator ω}
  {steps : List (GatewayStep ω)}

/-- In a locked state the chipset is locked, unless it refused the one attempt that was made to lock it,
by the operation that locked the gateway. -/
theorem run_lock_believed (henv : ∀ c c', env c c' → sealed c.machine.world → sealed c'.machine.world)
    (hrun : Run p env (.new comm) steps g) (hlocked : g.locked = true) :
    ∃ s ∈ steps, Locks p s.found s.op ∧ (p.comm.access.isLocked g.world = true ∨
      Refused p sealed (probe p s.op.source s.found.world).2) := by
  have hsealed : ∃ s ∈ steps, Locks p s.found s.op ∧ (sealed g.world ∨
      Refused p sealed (probe p s.op.source s.found.world).2) := by
    induction hrun with
    | start => cases hlocked
    | outside _ comm henv' ih =>
      obtain ⟨s, hs, hlocks, hworld⟩ := ih hlocked
      exact ⟨s, hs, hlocks, hworld.imp_left (henv _ _ henv')⟩
    | @operation steps g _ op hreturns ih =>
      cases perform_settles p g op with
      | locks hlocks _ _ _ =>
        refine ⟨⟨op, g⟩, List.mem_cons_self, hlocks, ?_⟩
        by_cases hrefused : Refused p sealed (probe p op.source g.world).2
        · exact .inr hrefused
        · exact .inl (Ends.iff_answer.mp (perform_sealed hseals hkeeps hlocks hrefused))
      | rests _ hsame _ _ =>
        obtain ⟨s, hs, hlocks, hworld⟩ := ih (hsame.symm.trans hlocked)
        refine ⟨s, List.mem_cons_of_mem _ hs, hlocks, hworld.imp_left fun hworld => ?_⟩
        exact Ends.iff_answer.mp (perform_keeps hkeeps op g hworld)
  obtain ⟨s, hs, hlocks, hworld⟩ := hsealed
  exact ⟨s, hs, hlocks, hworld.imp_left (hseals.isLocked _)⟩

omit hseals hkeeps

theorem acknowledged_seals : acknowledged.comm.access.Seals fun w => w.2 = true where
  lock := by
    intro w w' hlock
    cases hlock
    rfl
  isLocked _ hw := hw

theorem acknowledged_keeps : acknowledged.KeepsWorld fun w => w.2 = true where
  comm := {
    access := {
      reveal := fun _ hw _ => hw
      hide := fun _ hw _ => hw
      lock := fun _ _ _ => rfl }
    executor := by
      intro e he b m hm
      cases he
      exact hm
    direct := nofun }
  isInstalled _ _ hw := hw

theorem run_lock_believed_secured :
    secured.locked = true ∧ acknowledged.comm.access.isLocked secured.world = true := by
  have hlocked : secured.locked = true := by decide +kernel
  obtain ⟨s, -, -, hbelieved⟩ :=
    run_lock_believed acknowledged_seals acknowledged_keeps (fun _ _ henv => henv) run_secured hlocked
  refine ⟨hlocked, hbelieved.resolve_right ?_⟩
  rintro (⟨-, e, w', hlock⟩ | ⟨hclaims, hnot⟩)
  · cases hlock
  · exact hnot hclaims

def refusing : GatewayParts (Bool × Bool) :=
  { acknowledged with
    comm := { acknowledged.comm with
      access := { acknowledged.comm.access with lock := fun w => .error .deviceError w } } }

def refused : Gateway (Bool × Bool) :=
  Step.after (perform refusing (.signal (.group Guid.readyToBoot)))
    (Step.after (perform refusing (.start handOff 0)) unstarted)

/-- A gateway whose chipset did not lock counts as locked all the same. -/
theorem locked_unlocked_chipset :
    refusing.comm.access.Seals (fun w => w.2 = true) ∧
    Run refusing lockStays unstarted
      [⟨.signal (.group Guid.readyToBoot), Step.after (perform refusing (.start handOff 0)) unstarted⟩,
        ⟨.start handOff 0, unstarted⟩] refused ∧
    refused.locked = true ∧ refusing.comm.access.isLocked refused.world = false := by
  refine ⟨⟨nofun, fun _ hw => hw⟩, .succeeding (.succeeding .start ?_) ?_, ?_, ?_⟩
  · decide +kernel
  · decide +kernel
  · decide +kernel
  · decide +kernel

end Gateway
end PlatformInit
