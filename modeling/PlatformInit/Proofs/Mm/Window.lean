import PlatformInit.Proofs.Mm.Erasure

/-!
What is asked of the window: nothing while it is locked, and one transition otherwise.

A refusal is an error like any other, so asking never stops the machine.
-/
set_option autoImplicit false
namespace PlatformInit

open Step (Ends Returns)

namespace SmramAccess
variable {ω κ : Type} (a : SmramAccess ω) (x : Attempt ω EfiError Unit) (w : ω)

theorem unlessLocked_eq : a.unlessLocked x w =
    if a.isLocked w then .error (.error .accessDenied) w else Step.ofAttempt x w := by
  refine (Step.bind_of_ok rfl).trans ?_
  split <;> rfl

theorem unlessLocked_returns : Ends (a.unlessLocked x) w fun r _ => Returns r := by
  rw [Ends, unlessLocked_eq]
  unfold Step.ofAttempt
  cases a.isLocked w with
  | true => trivial
  | false => cases x w <;> trivial

theorem after_unlessLocked : Step.after (a.unlessLocked x) w =
    if a.isLocked w then w else Step.after x w := by
  unfold Step.after
  rw [unlessLocked_eq]
  unfold Step.ofAttempt
  cases a.isLocked w with
  | true => rfl
  | false => cases x w <;> rfl

variable {a}

theorem after_unlessLocked_call {a' : SmramAccess (Noted ω κ)} (h : a'.Mirrors a) (note : ω → κ)
    (n : Noted ω κ) : Step.after (a'.unlessLocked (Noted.call note x)) n =
      ⟨Step.after (a.unlessLocked x) n.world,
        (if a.isLocked n.world then [] else [note n.world]) ++ n.calls⟩ := by
  rw [after_unlessLocked, after_unlessLocked, h.isLocked, Noted.after_call]
  split <;> rfl

end SmramAccess
end PlatformInit
