import PlatformInit.Walk

/-!
Searches of a walk look at its items only. The walk itself matters to a search that finds nothing.
-/
set_option autoImplicit false
namespace PlatformInit.Walk

variable {α : Type} {w rest : Walk α} {items : List α}

theorem toList_next {a : α} (h : (Walk.next a rest).toList = .ok items) :
    ∃ others, rest.toList = .ok others ∧ items = a :: others := by
  rw [toList] at h
  cases hrest : rest.toList with
  | error why =>
    rw [hrest] at h
    cases h
  | ok others =>
    rw [hrest] at h
    cases h
    exact ⟨others, rfl, rfl⟩

theorem items_of_toList (h : w.toList = .ok items) : w.items = items := by
  induction w generalizing items with
  | done =>
    cases h
    rfl
  | halted why => cases h
  | next a rest ih =>
    obtain ⟨others, hrest, rfl⟩ := toList_next h
    rw [Walk.items, ih hrest]

theorem find?_eq (w : Walk α) (p : α → Bool) : w.find? p =
    match w.items.find? p with
    | some a => .ok (some a)
    | none => w.toList.map fun _ => none := by
  induction w with
  | done => rfl
  | halted why => rfl
  | next a rest ih =>
    rw [find?, Walk.items, List.find?_cons, toList]
    cases p a with
    | true => rfl
    | false =>
      refine ih.trans ?_
      cases rest.toList <;> rfl

theorem find?_of_toList (h : w.toList = .ok items) (p : α → Bool) : w.find? p = .ok (items.find? p) := by
  rw [find?_eq, items_of_toList h, h]
  cases items.find? p <;> rfl

end PlatformInit.Walk
