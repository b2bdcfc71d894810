import PlatformInit.Proofs.Contract
import PlatformInit.Proofs.Simulation

/-!
Worlds that note the calls made of them, for statements about every call of a run.
-/
set_option autoImplicit false
namespace PlatformInit

open Step (Keeps Ends Follows)

/-- A world together with the calls that were made of it, newest first. -/
structure Noted (ω κ : Type) where
  world : ω
  calls : List κ

namespace Noted
variable {ω κ ε α : Type}

def call (note : ω → κ) (x : EStateM ε ω α) : EStateM ε (Noted ω κ) α := fun n =>
  match x n.world with
  | .ok a w => .ok a ⟨w, note n.world :: n.calls⟩
  | .error e w => .error e ⟨w, note n.world :: n.calls⟩

theorem call_calls (note : ω → κ) (x : EStateM ε ω α) (n : Noted ω κ) :
    Ends (call note x) n fun _ t => t.calls = note n.world :: n.calls := by
  unfold Ends call
  cases x n.world <;> rfl

theorem after_call (note : ω → κ) (x : EStateM ε ω α) (n : Noted ω κ) :
    Step.after (call note x) n = ⟨Step.after x n.world, note n.world :: n.calls⟩ := by
  unfold Step.after call
  cases x n.world <;> rfl

theorem call_follows (note : ω → κ) (x : EStateM ε ω α) : Follows world (call note x) x := by
  intro n
  unfold call
  cases x n.world <;> rfl

def All (P : κ → Prop) (n : Noted ω κ) : Prop := ∀ c ∈ n.calls, P c

theorem call_keeps {P : κ → Prop} {note : ω → κ} (h : ∀ w, P (note w)) (x : EStateM ε ω α) :
    Keeps (All P) (call note x) := by
  refine fun n hn => (call_calls note x n).mono fun _ t ht => ?_
  unfold All
  rw [ht]
  exact List.forall_mem_cons.mpr ⟨h n.world, hn⟩

/-- Every call is one that `Q` allows behind the calls before it. -/
def Justified (Q : κ → List κ → Prop) : List κ → Prop
  | [] => True
  | call :: earlier => Q call earlier ∧ Justified Q earlier

theorem Justified.of_append {Q : κ → List κ → Prop} {later earlier : List κ} {call : κ}
    (h : Justified Q (later ++ call :: earlier)) : Q call earlier := by
  induction later with
  | nil => exact h.1
  | cons _ _ ih => exact ih h.2

theorem call_justified {Q : κ → List κ → Prop} {note : ω → κ} (h : ∀ w earlier, Q (note w) earlier)
    (x : EStateM ε ω α) : Keeps (fun n : Noted ω κ => Justified Q n.calls) (call note x) := by
  refine fun n hn => (call_calls note x n).mono fun _ t ht => ?_
  change Justified Q t.calls
  rw [ht]
  exact ⟨h n.world n.calls, hn⟩

end Noted

end PlatformInit
