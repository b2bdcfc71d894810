import PlatformInit.Proofs.Step

/-!
Two steps that do the same on different states.

`Follows f x y` says that `y` does on the image of a state under `f` what `x` does on the state
itself. There is one rule for each way to put steps together, so that a step with notes in its
state is compared with the one without by going through its parts.
-/
set_option autoImplicit false
namespace PlatformInit

namespace Step
variable {σ τ σ' τ' ε ε' α β : Type}

def mapState (f : σ → τ) : EStateM.Result ε σ α → EStateM.Result ε τ α
  | .ok a s => .ok a (f s)
  | .error e s => .error e (f s)

def Follows (f : σ → τ) (x : EStateM ε σ α) (y : EStateM ε τ α) : Prop :=
  ∀ s, y (f s) = mapState f (x s)

namespace Follows
variable {f : σ → τ}

theorem after {x : EStateM ε σ α} {y : EStateM ε τ α} (h : Follows f x y) (s : σ) :
    Step.after y (f s) = f (Step.after x s) := by
  unfold Step.after
  rw [h s]
  cases x s <;> rfl

theorem answer {x : EStateM ε σ α} {y : EStateM ε τ α} (h : Follows f x y) (s : σ) :
    Step.answer y (f s) = Step.answer x s := by
  unfold Step.answer
  rw [h s]
  cases x s <;> rfl

theorem refl (x : EStateM ε σ α) : Follows id x x := by
  intro s
  change x s = mapState id (x s)
  cases x s <;> rfl

theorem bind {x : EStateM ε σ α} {y : EStateM ε τ α} {g : α → EStateM ε σ β} {h : α → EStateM ε τ β}
    (hx : Follows f x y) (hg : ∀ a, Follows f (g a) (h a)) : Follows f (x >>= g) (y >>= h) := by
  intro s
  change EStateM.bind y h (f s) = mapState f (EStateM.bind x g s)
  unfold EStateM.bind
  rw [hx s]
  cases x s with
  | ok a t => exact hg a t
  | error e t => rfl

theorem pure (a : α) : Follows f (Pure.pure a : EStateM ε σ α) (Pure.pure a) := fun _ => rfl

theorem ite {c : Prop} [Decidable c] {x x' : EStateM ε σ α} {y y' : EStateM ε τ α}
    (h : Follows f x y) (h' : Follows f x' y') :
    Follows f (if c then x else x') (if c then y else y') := by
  split
  · exact h
  · exact h'

theorem get_bind {g : σ → EStateM ε σ β} {h : τ → EStateM ε τ β}
    (hg : ∀ s, Follows f (g s) (h (f s))) : Follows f (get >>= g) (get >>= h) := fun s => hg s s

theorem set {s : σ} {t : τ} (h : f s = t) :
    Follows f (MonadStateOf.set s : EStateM ε σ PUnit) (MonadStateOf.set t) := by
  subst h
  exact fun _ => rfl

theorem modify {g : σ → σ} {h : τ → τ} (hg : ∀ s, f (g s) = h (f s)) :
    Follows f (modify g : EStateM ε σ PUnit) (modify h) := by
  intro s
  change EStateM.Result.ok PUnit.unit (h (f s)) = .ok PUnit.unit (f (g s))
  rw [hg]

theorem forM {g : β → EStateM ε σ PUnit} {h : β → EStateM ε τ PUnit} (hg : ∀ b, Follows f (g b) (h b))
    (xs : List β) : Follows f (xs.forM g) (xs.forM h) := by
  induction xs with
  | nil => exact pure _
  | cons x xs ih => exact bind (hg x) fun _ => ih

theorem fail (e : ε) : Follows f (Step.fail e : Step σ ε α) (Step.fail e) := fun _ => rfl

theorem fatal (reason : String) : Follows f (Step.fatal reason : Step σ ε α) (Step.fatal reason) :=
  fun _ => rfl

theorem orFatal {x : Step σ ε α} {y : Step τ ε α} (reason : ε → String) (h : Follows f x y) :
    Follows f (Step.orFatal reason x : Step σ ε' α) (Step.orFatal reason y) := by
  intro s
  unfold Step.orFatal
  rw [h s]
  cases x s with
  | ok a t => rfl
  | error e t => cases e <;> rfl

theorem ofFallible (x : Fallible ε α) :
    Follows f (Step.ofFallible x : Step σ ε α) (Step.ofFallible x) := by
  intro s
  cases x <;> rfl

theorem valueOrFatal (reason : ε → String) (x : Except ε α) :
    Follows f (Step.valueOrFatal reason x : Step σ ε' α) (Step.valueOrFatal reason x) :=
  orFatal reason (ofFallible _)

theorem ofAttempt {x : Attempt σ ε α} {y : Attempt τ ε α} (h : Follows f x y) :
    Follows f (Step.ofAttempt x) (Step.ofAttempt y) := by
  intro s
  unfold Step.ofAttempt
  rw [h s]
  cases x s <;> rfl

theorem mapError {x : Step σ ε α} {y : Step τ ε α} (g : ε → ε') (h : Follows f x y) :
    Follows f (Step.mapError g x) (Step.mapError g y) := by
  intro s
  unfold Step.mapError
  rw [h s]
  cases x s <;> rfl

theorem attempt {x : Step σ ε α} {y : Step τ ε α} (h : Follows f x y) :
    Follows f (Step.attempt x : Step σ ε' (Except ε α)) (Step.attempt y) := by
  intro s
  unfold Step.attempt
  rw [h s]
  cases x s with
  | ok a t => rfl
  | error e t => cases e <;> rfl

theorem ignoringError {x : Step σ ε Unit} {y : Step τ ε Unit} (h : Follows f x y) :
    Follows f (Step.ignoringError x : Step σ ε' Unit) (Step.ignoringError y) :=
  bind (attempt h) fun _ => pure _

theorem focus {r : σ' → τ'} {get : σ → σ'} {put : σ' → σ → σ} {get' : τ → τ'} {put' : τ' → τ → τ}
    {x : Step σ' ε α} {y : Step τ' ε α} (hget : ∀ s, get' (f s) = r (get s))
    (hput : ∀ s s', put' (r s') (f s) = f (put s' s)) (h : Follows r x y) :
    Follows f (Step.focus get put x) (Step.focus get' put' y) := by
  intro s
  unfold Step.focus
  rw [hget, h (get s)]
  cases x (get s) with
  | ok a t => exact congrArg (EStateM.Result.ok a) (hput s t)
  | error e t => exact congrArg (EStateM.Result.error e) (hput s t)

end Follows

end Step
end PlatformInit
