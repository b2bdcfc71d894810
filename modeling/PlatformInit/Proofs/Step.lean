import PlatformInit.Fault

/-!
Steps that succeed: `bind_eq_ok` takes a successful run apart.
-/
set_option autoImplicit false
namespace PlatformInit

instance instDecidableEqExcept {ε α : Type} [DecidableEq ε] [DecidableEq α] :
    DecidableEq (Except ε α)
  | .ok a, .ok b => decidable_of_iff (a = b) (by rw [Except.ok.injEq])
  | .error d, .error e => decidable_of_iff (d = e) (by rw [Except.error.injEq])
  | .ok _, .error _ => isFalse nofun
  | .error _, .ok _ => isFalse nofun

theorem Fallible.bind_eq_ok {ε α β : Type} {x : Except ε α} {f : α → Except ε β} {b : β} :
    (x >>= f) = .ok b ↔ ∃ a, x = .ok a ∧ f a = .ok b := by
  cases x with
  | ok a =>
    change f a = .ok b ↔ _
    simp only [Except.ok.injEq, exists_eq_left']
  | error e =>
    constructor
    · nofun
    · rintro ⟨a, heq, -⟩
      cases heq

theorem Fallible.ofHalting_eq_ok {ε α : Type} {x : Except Halt α} {a : α} :
    (Fallible.ofHalting x : Fallible ε α) = .ok a ↔ x = .ok a := by
  cases x with
  | ok b =>
    change Except.ok b = .ok a ↔ _
    rw [Except.ok.injEq, Except.ok.injEq]
  | error h => constructor <;> nofun

theorem Fallible.ofExcept_eq_ok {ε α : Type} {x : Except ε α} {a : α} :
    (Fallible.ofExcept x : Fallible ε α) = .ok a ↔ x = .ok a := by
  cases x with
  | ok b =>
    change Except.ok b = .ok a ↔ _
    rw [Except.ok.injEq, Except.ok.injEq]
  | error e => constructor <;> nofun

namespace Step
variable {σ τ ε ε' α β : Type}

theorem pure_eq_ok {a b : α} {s t : σ} : (pure a : EStateM ε σ α) s = .ok b t ↔ a = b ∧ s = t := by
  change EStateM.Result.ok a s = .ok b t ↔ _
  rw [EStateM.Result.ok.injEq]

theorem bind_eq_ok {x : EStateM ε σ α} {f : α → EStateM ε σ β} {s t : σ} {b : β} :
    (x >>= f) s = .ok b t ↔ ∃ a u, x s = .ok a u ∧ f a u = .ok b t := by
  change EStateM.bind x f s = _ ↔ _
  unfold EStateM.bind
  cases hx : x s with
  | ok a u =>
    constructor
    · exact fun h => ⟨a, u, rfl, h⟩
    · rintro ⟨a', u', heq, h⟩
      cases heq
      exact h
  | error e u =>
    constructor
    · nofun
    · rintro ⟨a', u', heq, h⟩
      cases heq

theorem bind_of_ok {x : EStateM ε σ α} {f : α → EStateM ε σ β} {s t : σ} {a : α}
    (h : x s = .ok a t) : (x >>= f) s = f a t := by
  change EStateM.bind x f s = _
  unfold EStateM.bind
  rw [h]

theorem bind_of_error {x : EStateM ε σ α} {f : α → EStateM ε σ β} {s t : σ} {e : ε}
    (h : x s = .error e t) : (x >>= f) s = .error e t := by
  change EStateM.bind x f s = _
  unfold EStateM.bind
  rw [h]

theorem bind_congr {x y : EStateM ε σ α} {f : α → EStateM ε σ β} {s t : σ} (h : x s = y t) :
    (x >>= f) s = (y >>= f) t := by
  change EStateM.bind x f s = EStateM.bind y f t
  unfold EStateM.bind
  rw [h]

theorem get_eq_ok {s t u : σ} : (get : EStateM ε σ σ) s = .ok t u ↔ s = t ∧ s = u := pure_eq_ok

theorem ofHalting_eq_ok {x : Except Halt α} {s t : σ} {a : α} :
    (ofHalting x : Step σ ε α) s = .ok a t ↔ x = .ok a ∧ s = t := by
  cases x with
  | ok b =>
    change EStateM.Result.ok b s = .ok a t ↔ _
    rw [EStateM.Result.ok.injEq, Except.ok.injEq]
  | error h => constructor <;> nofun

theorem ofHalting_of_error {x : Except Halt α} {why : Halt} {s : σ} (h : x = .error why) :
    (ofHalting x : Step σ ε α) s = .error (.halt why) s := by
  rw [h]
  rfl

theorem fail_eq_ok {e : ε} {s t : σ} {a : α} : (fail e : Step σ ε α) s = .ok a t ↔ False := by
  constructor <;> nofun

theorem forM_nil_eq_ok {f : α → EStateM ε σ PUnit} {s t : σ} :
    ([] : List α).forM f s = .ok ⟨⟩ t ↔ s = t := by
  change (pure ⟨⟩ : EStateM ε σ PUnit) s = _ ↔ _
  rw [pure_eq_ok, eq_self, true_and]

theorem forM_cons_eq_ok {f : α → EStateM ε σ PUnit} {x : α} {xs : List α} {s t : σ} :
    (x :: xs).forM f s = .ok ⟨⟩ t ↔ ∃ u, f x s = .ok ⟨⟩ u ∧ xs.forM f u = .ok ⟨⟩ t := by
  change (f x >>= fun _ => xs.forM f) s = _ ↔ _
  rw [bind_eq_ok]
  constructor
  · rintro ⟨_, u, hx, hxs⟩
    exact ⟨u, hx, hxs⟩
  · rintro ⟨u, hx, hxs⟩
    exact ⟨⟨⟩, u, hx, hxs⟩

theorem forM_ite_eq {q : α → Prop} [DecidablePred q] {f : α → EStateM ε σ PUnit}
    {xs : List α} (hone : xs.Pairwise fun a b => ¬(q a ∧ q b)) :
    (xs.forM fun x => if q x then f x else pure ⟨⟩) = (xs.find? (q ·)).elim (pure ⟨⟩) f := by
  induction xs with
  | nil => rfl
  | cons x xs ih =>
    obtain ⟨hx, hxs⟩ := List.pairwise_cons.mp hone
    change ((if q x then f x else pure ⟨⟩) >>= fun _ => xs.forM _) = _
    rw [ih hxs, List.find?_cons]
    by_cases hq : q x
    · have hnone : xs.find? (q ·) = none := by
        rw [List.find?_eq_none]
        intro y hy hqy
        exact hx y hy ⟨hq, of_decide_eq_true hqy⟩
      simp [hq, hnone]
    · simp [hq]

theorem mapError_eq_ok {f : ε → ε'} {x : Step σ ε α} {s t : σ} {a : α} :
    mapError f x s = .ok a t ↔ x s = .ok a t := by
  unfold mapError
  cases x s with
  | ok b u =>
    change EStateM.Result.ok b u = .ok a t ↔ _
    rw [EStateM.Result.ok.injEq, EStateM.Result.ok.injEq]
  | error e u => constructor <;> nofun

theorem orFatal_eq_ok {reason : ε → String} {x : Step σ ε α} {s t : σ} {a : α} :
    (orFatal reason x : Step σ ε' α) s = .ok a t ↔ x s = .ok a t := by
  unfold orFatal
  cases x s with
  | ok b u =>
    change EStateM.Result.ok b u = .ok a t ↔ _
    rw [EStateM.Result.ok.injEq, EStateM.Result.ok.injEq]
  | error e u => cases e <;> constructor <;> nofun

section
variable {x : Step σ ε α} {s t : σ}

theorem attempt_of_ok {a : α} (h : x s = .ok a t) :
    (attempt x : Step σ ε' (Except ε α)) s = .ok (.ok a) t := by
  unfold attempt
  rw [h]

theorem attempt_of_error {e : ε} (h : x s = .error (.error e) t) :
    (attempt x : Step σ ε' (Except ε α)) s = .ok (.error e) t := by
  unfold attempt
  rw [h]

theorem attempt_of_halt {why : Halt} (h : x s = .error (.halt why) t) :
    (attempt x : Step σ ε' (Except ε α)) s = .error (.halt why) t := by
  unfold attempt
  rw [h]

end

section
variable {x : Step σ ε Unit} {s t : σ}

theorem ignoringError_of_ok (h : x s = .ok () t) : (ignoringError x : Step σ ε' Unit) s = .ok () t :=
  bind_of_ok (attempt_of_ok h)

theorem ignoringError_of_error {e : ε} (h : x s = .error (.error e) t) :
    (ignoringError x : Step σ ε' Unit) s = .ok () t := bind_of_ok (attempt_of_error h)

theorem ignoringError_of_halt {why : Halt} (h : x s = .error (.halt why) t) :
    (ignoringError x : Step σ ε' Unit) s = .error (.halt why) t := bind_of_error (attempt_of_halt h)

theorem ignoringError_ignoringError {ε'' : Type} (x : Step σ ε Unit) :
    (ignoringError (ignoringError x : Step σ ε' Unit) : Step σ ε'' Unit) = ignoringError x := by
  funext s
  cases h : x s with
  | ok a t => rw [ignoringError_of_ok (ignoringError_of_ok h), ignoringError_of_ok h]
  | error e t =>
    cases e with
    | error e => rw [ignoringError_of_ok (ignoringError_of_error h), ignoringError_of_error h]
    | halt why => rw [ignoringError_of_halt (ignoringError_of_halt h), ignoringError_of_halt h]

end

section
variable {get : τ → σ} {set : σ → τ → τ} {x : Step σ ε α} {s : σ} {t : τ}

theorem focus_of_ok {a : α} (h : x (get t) = .ok a s) : focus get set x t = .ok a (set s t) := by
  unfold focus
  rw [h]

theorem focus_of_error {e : Fault ε} (h : x (get t) = .error e s) :
    focus get set x t = .error e (set s t) := by
  unfold focus
  rw [h]

end

theorem focus_ignoringError (get : τ → σ) (set : σ → τ → τ) (x : Step σ ε Unit) :
    focus get set (ignoringError x : Step σ ε' Unit) = ignoringError (focus get set x) := by
  funext t
  cases h : x (get t) with
  | ok a s => rw [focus_of_ok (ignoringError_of_ok h), ignoringError_of_ok (focus_of_ok h)]
  | error e s =>
    cases e with
    | error e => rw [focus_of_ok (ignoringError_of_error h), ignoringError_of_error (focus_of_error h)]
    | halt why => rw [focus_of_error (ignoringError_of_halt h), ignoringError_of_halt (focus_of_error h)]

theorem focus_eq_error {get : τ → σ} {set : σ → τ → τ} {x : Step σ ε α} {t t' : τ} {e : Fault ε}
    (h : focus get set x t = .error e t') : ∃ s, x (get t) = .error e s := by
  unfold focus at h
  cases hx : x (get t) with
  | ok a s =>
    rw [hx] at h
    cases h
  | error e' s =>
    rw [hx] at h
    cases h
    exact ⟨s, rfl⟩

/-- The state that `x` leaves, whether it succeeds or not. -/
def after (x : EStateM ε σ α) (s : σ) : σ :=
  match x s with
  | .ok _ t => t
  | .error _ t => t

theorem after_of_ok {x : EStateM ε σ α} {s t : σ} {a : α} (h : x s = .ok a t) : after x s = t := by
  unfold after
  rw [h]

theorem after_of_error {x : EStateM ε σ α} {s t : σ} {e : ε} (h : x s = .error e t) :
    after x s = t := by
  unfold after
  rw [h]

theorem after_congr {x y : EStateM ε σ α} {s : σ} (h : x s = y s) : after x s = after y s := by
  unfold after
  rw [h]

theorem after_bind_of_ok {x : EStateM ε σ α} {f : α → EStateM ε σ β} {s t : σ} {a : α}
    (h : x s = .ok a t) : after (x >>= f) s = after (f a) t := by
  unfold after
  rw [bind_of_ok h]

theorem after_bind_of_error {x : EStateM ε σ α} {f : α → EStateM ε σ β} {s t : σ} {e : ε}
    (h : x s = .error e t) : after (x >>= f) s = t := after_of_error (bind_of_error h)

theorem after_bind_pure (x : EStateM ε σ α) (f : α → β) (s : σ) :
    after (do return f (← x)) s = after x s := by
  unfold after
  cases h : x s with
  | ok a t => rw [bind_of_ok h]; rfl
  | error e t => rw [bind_of_error h]

theorem after_ignoringError (x : Step σ ε Unit) (s : σ) :
    after (ignoringError x : Step σ ε' Unit) s = after x s := by
  cases h : x s with
  | ok a t => rw [after_of_ok (ignoringError_of_ok h), after_of_ok h]
  | error e t =>
    rw [after_of_error h]
    cases e with
    | error e => exact after_of_ok (ignoringError_of_error h)
    | halt why => exact after_of_error (ignoringError_of_halt h)

theorem after_focus (get : τ → σ) (set : σ → τ → τ) (x : Step σ ε α) (t : τ) :
    after (focus get set x) t = set (after x (get t)) t := by
  unfold after focus
  cases x (get t) <;> rfl

/-- What `x` answers from `s`. -/
def answer (x : EStateM ε σ α) (s : σ) : Except ε α :=
  match x s with
  | .ok a _ => .ok a
  | .error e _ => .error e

theorem answer_eq_ok {x : EStateM ε σ α} {s : σ} {a : α} :
    answer x s = .ok a ↔ ∃ t, x s = .ok a t := by
  unfold answer
  cases x s with
  | ok b t => simp
  | error e t => constructor <;> nofun

theorem answer_eq_error {x : EStateM ε σ α} {s : σ} {e : ε} :
    answer x s = .error e ↔ ∃ t, x s = .error e t := by
  unfold answer
  cases x s with
  | ok a t => constructor <;> nofun
  | error e' t => simp

def succeeds (x : EStateM ε σ α) (s : σ) : Bool :=
  match x s with
  | .ok _ _ => true
  | .error _ _ => false

theorem succeeds_iff {x : EStateM ε σ α} {s : σ} : succeeds x s = true ↔ ∃ a t, x s = .ok a t := by
  unfold succeeds
  cases x s with
  | ok a t => exact ⟨fun _ => ⟨a, t, rfl⟩, fun _ => rfl⟩
  | error e t =>
    constructor
    · nofun
    · rintro ⟨_, _, h⟩
      cases h

theorem succeeds_of_answer {x : EStateM ε σ α} {s : σ} {a : α} (h : answer x s = .ok a) :
    succeeds x s = true := by
  unfold answer at h
  unfold succeeds
  cases hx : x s with
  | ok b t => rfl
  | error e t =>
    rw [hx] at h
    cases h

end Step
end PlatformInit
