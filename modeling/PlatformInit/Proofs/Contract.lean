import PlatformInit.Proofs.Step

/-!
All ways a step can end at once, for what a step does even when it fails.

`Ends x s post` speaks of the value or the failure and of the state left behind. There is one rule
for each way to put steps together; a contract of a larger step is assembled from those of its
parts.
-/
set_option autoImplicit false
namespace PlatformInit

namespace Step
variable {σ τ ε ε' α β : Type}

/-- Every end of `x` from `s` meets `post`, a failure like a success. -/
def Ends (x : EStateM ε σ α) (s : σ) (post : Except ε α → σ → Prop) : Prop :=
  match x s with
  | .ok a t => post (.ok a) t
  | .error e t => post (.error e) t

namespace Ends

theorem of_ok {x : EStateM ε σ α} {s t : σ} {a : α} {post : Except ε α → σ → Prop}
    (h : Ends x s post) (hx : x s = .ok a t) : post (.ok a) t := by
  unfold Ends at h
  rwa [hx] at h

theorem of_error {x : EStateM ε σ α} {s t : σ} {e : ε} {post : Except ε α → σ → Prop}
    (h : Ends x s post) (hx : x s = .error e t) : post (.error e) t := by
  unfold Ends at h
  rwa [hx] at h

theorem of_eq_ok {x : EStateM ε σ α} {s t : σ} {a : α} {post : Except ε α → σ → Prop}
    (hx : x s = .ok a t) (h : post (.ok a) t) : Ends x s post := by
  unfold Ends
  rw [hx]
  exact h

theorem of_eq_error {x : EStateM ε σ α} {s t : σ} {e : ε} {post : Except ε α → σ → Prop}
    (hx : x s = .error e t) (h : post (.error e) t) : Ends x s post := by
  unfold Ends
  rw [hx]
  exact h

theorem intro {x : EStateM ε σ α} {s : σ} {post : Except ε α → σ → Prop}
    (hok : ∀ a t, x s = .ok a t → post (.ok a) t)
    (herror : ∀ e t, x s = .error e t → post (.error e) t) : Ends x s post := by
  unfold Ends
  split
  · exact hok _ _ (by assumption)
  · exact herror _ _ (by assumption)

theorem mono {x : EStateM ε σ α} {s : σ} {post post' : Except ε α → σ → Prop}
    (h : Ends x s post) (himp : ∀ r t, post r t → post' r t) : Ends x s post' :=
  intro (fun _ _ hx => himp _ _ (h.of_ok hx)) (fun _ _ hx => himp _ _ (h.of_error hx))

theorem congr {x y : EStateM ε σ α} {s t : σ} {post : Except ε α → σ → Prop} (h : x s = y t)
    (hy : Ends y t post) : Ends x s post := by
  unfold Ends
  rw [h]
  exact hy

theorem bind_of_ok {x : EStateM ε σ α} {f : α → EStateM ε σ β} {s t : σ} {a : α}
    {post : Except ε β → σ → Prop} (hx : x s = .ok a t) (h : Ends (f a) t post) :
    Ends (x >>= f) s post := by
  change match EStateM.bind x f s with | .ok b t => post (.ok b) t | .error e t => post (.error e) t
  unfold EStateM.bind
  rw [hx]
  exact h

theorem bind_of_error {x : EStateM ε σ α} {f : α → EStateM ε σ β} {s t : σ} {e : ε}
    {post : Except ε β → σ → Prop} (hx : x s = .error e t) (h : post (.error e) t) :
    Ends (x >>= f) s post := by
  change match EStateM.bind x f s with | .ok b t => post (.ok b) t | .error e t => post (.error e) t
  unfold EStateM.bind
  rw [hx]
  exact h

theorem bind {x : EStateM ε σ α} {f : α → EStateM ε σ β} {s : σ} {R : Except ε α → σ → Prop}
    {post : Except ε β → σ → Prop} (hx : Ends x s R) (hok : ∀ a t, R (.ok a) t → Ends (f a) t post)
    (herror : ∀ e t, R (.error e) t → post (.error e) t) : Ends (x >>= f) s post := by
  cases heq : x s with
  | ok a t => exact bind_of_ok heq (hok a t (hx.of_ok heq))
  | error e t => exact bind_of_error heq (herror e t (hx.of_error heq))

theorem iff_answer {x : EStateM ε σ α} {s : σ} {post : Except ε α → σ → Prop} :
    Ends x s post ↔ post (answer x s) (after x s) := by
  unfold Ends answer Step.after
  cases x s <;> exact Iff.rfl

theorem pure {a : α} {s : σ} {post : Except ε α → σ → Prop} (h : post (.ok a) s) :
    Ends (Pure.pure a : EStateM ε σ α) s post := h

theorem get_bind {f : σ → EStateM ε σ β} {s : σ} {post : Except ε β → σ → Prop}
    (h : Ends (f s) s post) : Ends (get >>= f) s post := h

theorem set {s t : σ} {post : Except ε PUnit → σ → Prop} (h : post (.ok ⟨⟩) t) :
    Ends (MonadStateOf.set t : EStateM ε σ PUnit) s post := h

theorem modify {g : σ → σ} {s : σ} {post : Except ε PUnit → σ → Prop} (h : post (.ok ⟨⟩) (g s)) :
    Ends (modify g : EStateM ε σ PUnit) s post := h

theorem ofFallible {x : Fallible ε α} {s : σ} {post : Except (Fault ε) α → σ → Prop}
    (h : post x s) : Ends (Step.ofFallible x : Step σ ε α) s post := by
  cases x <;> exact h

theorem ofFallible_bind {x : Fallible ε α} {f : α → Step σ ε β} {s : σ}
    {post : Except (Fault ε) β → σ → Prop} (hok : ∀ a, x = .ok a → Ends (f a) s post)
    (herror : ∀ e, x = .error e → post (.error e) s) : Ends (Step.ofFallible x >>= f) s post := by
  cases x with
  | ok a => exact bind_of_ok rfl (hok a rfl)
  | error e => exact bind_of_error rfl (herror e rfl)

theorem ofAttempt {x : Attempt σ ε α} {s : σ} {post : Except (Fault ε) α → σ → Prop}
    (h : Ends x s fun r t => post (Fallible.ofExcept r) t) : Ends (Step.ofAttempt x) s post := by
  unfold Ends Step.ofAttempt
  cases heq : x s with
  | ok a t => exact h.of_ok heq
  | error e t => exact h.of_error heq

def attempted : Except (Fault ε) α → Except (Fault ε') (Except ε α)
  | .ok a => .ok (.ok a)
  | .error (.error e) => .ok (.error e)
  | .error (.halt h) => .error (.halt h)

theorem attempt {x : Step σ ε α} {s : σ} {post : Except (Fault ε') (Except ε α) → σ → Prop}
    (h : Ends x s fun r t => post (attempted r) t) : Ends (Step.attempt x) s post := by
  unfold Ends Step.attempt
  cases heq : x s with
  | ok a t => exact h.of_ok heq
  | error e t =>
    cases e with
    | error e => exact h.of_error heq
    | halt why => exact h.of_error heq

theorem mapError {f : ε → ε'} {x : Step σ ε α} {s : σ} {post : Except (Fault ε') α → σ → Prop}
    (h : Ends x s fun r t => post (Fallible.mapError f r) t) : Ends (Step.mapError f x) s post := by
  unfold Ends Step.mapError
  cases heq : x s with
  | ok a t => exact h.of_ok heq
  | error e t => exact h.of_error heq

theorem orFatal {reason : ε → String} {x : Step σ ε α} {s : σ} {R : Except (Fault ε) α → σ → Prop}
    {post : Except (Fault ε') α → σ → Prop} (h : Ends x s R)
    (hok : ∀ a t, R (.ok a) t → post (.ok a) t)
    (herror : ∀ e t, R (.error e) t → ∀ e', post (.error e') t) :
    Ends (Step.orFatal reason x) s post := by
  unfold Ends Step.orFatal
  cases heq : x s with
  | ok a t => exact hok a t (h.of_ok heq)
  | error e t =>
    cases e with
    | error e => exact herror _ t (h.of_error heq) _
    | halt why => exact herror _ t (h.of_error heq) _

theorem valueOrFatal_bind {reason : ε → String} {x : Except ε α} {f : α → Step σ ε' β} {s : σ}
    {post : Except (Fault ε') β → σ → Prop} (hok : ∀ a, x = .ok a → Ends (f a) s post)
    (herror : ∀ e, post (.error e) s) : Ends (Step.valueOrFatal reason x >>= f) s post := by
  cases x with
  | ok a => exact bind_of_ok rfl (hok a rfl)
  | error e => exact bind_of_error rfl (herror _)

theorem focus {get : τ → σ} {set : σ → τ → τ} {x : Step σ ε α} {t : τ}
    {post : Except (Fault ε) α → τ → Prop} (h : Ends x (get t) fun r s => post r (set s t)) :
    Ends (Step.focus get set x) t post := by
  unfold Ends Step.focus
  cases heq : x (get t) with
  | ok a s => exact h.of_ok heq
  | error e s => exact h.of_error heq

end Ends

/-- The end is not a halt. -/
def Returns : Except (Fault ε) α → Prop
  | .error (.halt _) => False
  | _ => True

theorem Returns.of_error {e : Fault ε} (h : Returns (.error e : Except (Fault ε) α)) :
    Returns (.error e : Except (Fault ε) β) := by
  cases e with
  | error e => trivial
  | halt why => exact h

theorem Returns.mapError {r : Except (Fault ε) α} (h : Returns r) (f : ε → ε') :
    Returns (Fallible.mapError f r) := by
  cases r with
  | ok a => trivial
  | error e =>
    cases e with
    | error e => trivial
    | halt why => exact h

theorem Ends.returns_bind {x : Step σ ε α} {f : α → Step σ ε β} {s : σ} {R : α → σ → Prop}
    (hx : Ends x s fun r t => Returns r ∧ ∀ a, r = .ok a → R a t)
    (hf : ∀ a t, R a t → Ends (f a) t fun r _ => Returns r) :
    Ends (x >>= f) s fun r _ => Returns r :=
  hx.bind (fun a t h => hf a t (h.2 a rfl)) fun _ _ h => h.1.of_error

theorem Ends.returns_forM {f : α → Step σ ε PUnit} {xs : List α}
    (h : ∀ x ∈ xs, ∀ s, Ends (f x) s fun r _ => Returns r) (s : σ) :
    Ends (xs.forM f) s fun r _ => Returns r := by
  induction xs generalizing s with
  | nil => trivial
  | cons x xs ih =>
    obtain ⟨hx, hxs⟩ := List.forall_mem_cons.mp h
    exact Ends.returns_bind (R := fun _ _ => True) ((hx s).mono fun _ _ hr => ⟨hr, fun _ _ => trivial⟩)
      fun _ t _ => ih hxs t

theorem returns_of_succeeds {x : Step σ ε α} {s : σ} (h : succeeds x s = true) :
    Returns (answer x s) := by
  obtain ⟨a, t, hend⟩ := succeeds_iff.mp h
  rw [answer, hend]
  trivial

theorem ignoringError_of_returns {x : Step σ ε Unit} {s : σ} (h : Ends x s fun r _ => Returns r) :
    (ignoringError x : Step σ ε' Unit) s = .ok () (after x s) := by
  cases hx : x s with
  | ok a t =>
    rw [after_of_ok hx]
    exact Step.bind_of_ok (attempt_of_ok hx)
  | error e t =>
    rw [after_of_error hx]
    cases e with
    | error e => exact Step.bind_of_ok (attempt_of_error hx)
    | halt why => exact (h.of_error hx).elim

/-- The only failures of `x` are halts. -/
def Unfailing (x : Step σ ε α) : Prop := ∀ s, Ends x s fun r _ => Returns r → ∃ a, r = .ok a

namespace Unfailing

theorem halts {x : Step σ ε α} (hx : Unfailing x) {s t : σ} {e : Fault ε} (h : x s = .error e t) :
    ∃ why, e = .halt why := by
  cases e with
  | error e =>
    obtain ⟨a, ha⟩ := (hx s).of_error h trivial
    cases ha
  | halt why => exact ⟨why, rfl⟩

theorem bind {x : Step σ ε α} {f : α → Step σ ε β} (hx : Unfailing x) (hf : ∀ a, Unfailing (f a)) :
    Unfailing (x >>= f) := by
  intro s
  refine (hx s).bind (fun a t _ => hf a t) fun e t he => ?_
  cases e with
  | error e =>
    obtain ⟨a, ha⟩ := he trivial
    cases ha
  | halt why => exact False.elim

theorem get_bind {f : σ → Step σ ε β} (hf : ∀ s, Unfailing (f s)) : Unfailing (get >>= f) := fun s =>
  hf s s

theorem pure (a : α) : Unfailing (Pure.pure a : Step σ ε α) := fun _ _ => ⟨a, rfl⟩

theorem modify (f : σ → σ) : Unfailing (modify f : Step σ ε PUnit) := fun _ _ => ⟨⟨⟩, rfl⟩

theorem set (s : σ) : Unfailing (MonadStateOf.set s : Step σ ε PUnit) := fun _ _ => ⟨⟨⟩, rfl⟩

theorem ofHalting (x : Except Halt α) : Unfailing (Step.ofHalting x : Step σ ε α) := by
  intro s
  refine Ends.ofFallible ?_
  cases x with
  | ok a => exact fun _ => ⟨a, rfl⟩
  | error why => exact False.elim

theorem ite {c : Prop} [Decidable c] {x y : Step σ ε α} (hx : Unfailing x) (hy : Unfailing y) :
    Unfailing (if c then x else y) := by
  split
  · exact hx
  · exact hy

theorem forM {f : α → Step σ ε PUnit} (hf : ∀ a, Unfailing (f a)) (xs : List α) :
    Unfailing (xs.forM f) := by
  induction xs with
  | nil => exact pure _
  | cons x xs ih => exact bind (hf x) fun _ => ih

theorem ignoringError (x : Step σ ε Unit) : Unfailing (Step.ignoringError x : Step σ ε' Unit) := by
  refine bind (fun s => Ends.attempt ?_) fun _ => pure _
  refine Ends.intro (fun a t _ _ => ⟨.ok a, rfl⟩) fun e t _ => ?_
  cases e with
  | error e => exact fun _ => ⟨.error e, rfl⟩
  | halt why => exact False.elim

theorem mapError {x : Step σ ε α} (hx : Unfailing x) (f : ε → ε') : Unfailing (Step.mapError f x) := by
  refine fun s => Ends.mapError (Ends.intro (fun a _ _ _ => ⟨a, rfl⟩) fun e _ h => ?_)
  obtain ⟨why, rfl⟩ := hx.halts h
  exact False.elim

theorem focus {get : τ → σ} {set : σ → τ → τ} {x : Step σ ε α} (hx : Unfailing x) :
    Unfailing (Step.focus get set x) := fun t => Ends.focus (hx (get t))

end Unfailing

/-- Whatever `x` does, it keeps `I`. -/
def Keeps (I : σ → Prop) (x : EStateM ε σ α) : Prop := ∀ s, I s → Ends x s fun _ t => I t

namespace Keeps
variable {I : σ → Prop}

theorem bind {x : EStateM ε σ α} {f : α → EStateM ε σ β} (hx : Keeps I x)
    (hf : ∀ a, Keeps I (f a)) : Keeps I (x >>= f) := fun s hs =>
  (hx s hs).bind (fun a t ht => hf a t ht) fun _ _ ht => ht

theorem pure (a : α) : Keeps I (Pure.pure a : EStateM ε σ α) := fun _ hs => hs

theorem get_bind {f : σ → EStateM ε σ β} (hf : ∀ s, Keeps I (f s)) : Keeps I (get >>= f) :=
  fun s hs => hf s s hs

theorem modify {f : σ → σ} (hf : ∀ s, I s → I (f s)) : Keeps I (modify f : EStateM ε σ PUnit) := hf

theorem ite {c : Prop} [Decidable c] {x y : EStateM ε σ α} (hx : Keeps I x) (hy : Keeps I y) :
    Keeps I (if c then x else y) := by
  split
  · exact hx
  · exact hy

theorem forM {f : α → EStateM ε σ PUnit} {xs : List α} (h : ∀ x ∈ xs, Keeps I (f x)) :
    Keeps I (xs.forM f) := by
  induction xs with
  | nil => exact pure _
  | cons x xs ih =>
    obtain ⟨hx, hxs⟩ := List.forall_mem_cons.mp h
    exact bind hx fun _ => ih hxs

theorem fail (e : ε) : Keeps I (Step.fail e : Step σ ε α) := fun _ hs => hs

theorem fatal (reason : String) : Keeps I (Step.fatal reason : Step σ ε α) := fun _ hs => hs

theorem orFatal {reason : ε → String} {x : Step σ ε α} (hx : Keeps I x) :
    Keeps I (Step.orFatal reason x : Step σ ε' α) := fun s hs =>
  Ends.orFatal (hx s hs) (fun _ _ h => h) fun _ _ h _ => h

theorem ofFallible (x : Fallible ε α) : Keeps I (Step.ofFallible x : Step σ ε α) := fun _ hs =>
  Ends.ofFallible hs

theorem valueOrFatal (reason : ε → String) (x : Except ε α) :
    Keeps I (Step.valueOrFatal reason x : Step σ ε' α) := orFatal (ofFallible _)

theorem ofAttempt {x : Attempt σ ε α} (hx : Keeps I x) : Keeps I (Step.ofAttempt x) := fun s hs =>
  Ends.ofAttempt (hx s hs)

theorem attempt {x : Step σ ε α} (hx : Keeps I x) :
    Keeps I (Step.attempt x : Step σ ε' (Except ε α)) := fun s hs => Ends.attempt (hx s hs)

theorem mapError {f : ε → ε'} {x : Step σ ε α} (hx : Keeps I x) : Keeps I (Step.mapError f x) :=
  fun s hs => Ends.mapError (hx s hs)

theorem focus {J : τ → Prop} {get : τ → σ} {set : σ → τ → τ} {x : Step σ ε α} (hx : Keeps I x)
    (hget : ∀ t, J t → I (get t)) (hset : ∀ s t, I s → J (set s t)) :
    Keeps J (Step.focus get set x) := fun t ht =>
  Ends.focus ((hx (get t) (hget t ht)).mono fun _ s hs => hset s t hs)

theorem ignoringError {x : Step σ ε Unit} (hx : Keeps I x) :
    Keeps I (Step.ignoringError x : Step σ ε' Unit) := (attempt hx).bind fun _ => pure _

end Keeps

end Step
end PlatformInit
