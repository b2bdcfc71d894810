import PlatformInit.Pe.Loading
import PlatformInit.Proofs.Bytes.Adjusting
import PlatformInit.Proofs.Step

/-!
What the entries of relocation blocks do to an image.

An entry that applies to an image adjusts at most one word of it. One that does not apply ends the move,
with a failure that depends on what is wrong with it. A list of entries therefore either adjusts the
words of all of them, by `forM_eq_ok_iff`, or stops at the first that does not apply, by `forM_stops`.
-/
set_option autoImplicit false
namespace PlatformInit

/-- An entry of a relocation block, with the page that its offset counts from. -/
structure Relocation where
  page : UInt32
  entry : UInt16
  deriving DecidableEq

namespace Relocation

def type (r : Relocation) : UInt16 := RelocationBlock.typeOf r.entry

def place (r : Relocation) : Nat := r.page.toNat + (RelocationBlock.offsetOf r.entry).toNat

/-- The word that the entry adjusts, if its type says how wide it is. -/
def field? (r : Relocation) : Option Extent :=
  if r.type = RelocationBlock.highLow then some ⟨r.place, 4⟩
  else if r.type = RelocationBlock.dir64 then some ⟨r.place, 8⟩
  else none

/-- The entry has a place that 32 bits can name, and needs no action or adjusts a word of the image. -/
def Applies (size : Nat) (r : Relocation) : Prop :=
  r.place < UInt32.size ∧ (r.type = RelocationBlock.absolute ∨ ∃ e ∈ r.field?, e.Within size)

instance (size : Nat) (r : Relocation) : Decidable (r.Applies size) := inferInstanceAs (Decidable (_ ∧ _))

def ofBlocks (blocks : List RelocationBlock) : List Relocation :=
  blocks.flatMap fun b => b.entries.map (⟨b.page, ·⟩)

def fields (rs : List Relocation) : List Extent := rs.filterMap field?

def apply (adjustment : UInt64) (r : Relocation) : Step Bytes PeError Unit :=
  RelocationBlock.applyEntry r.page adjustment r.entry

end Relocation

namespace Relocation
variable {adjustment : UInt64} {image image' : Bytes} {r : Relocation} {rs : List Relocation}

theorem length_of_field? {e : Extent} (h : e ∈ r.field?) : e.length = 4 ∨ e.length = 8 := by
  unfold field? at h
  split at h
  · cases h
    exact .inl rfl
  split at h
  · cases h
    exact .inr rfl
  · cases h

theorem length_of_mem_fields {e : Extent} (h : e ∈ fields rs) : e.length ≤ 8 := by
  obtain ⟨r, -, hfield⟩ := List.mem_filterMap.mp h
  have := length_of_field? hfield
  omega

theorem field?_of_highLow (h : r.type = RelocationBlock.highLow) : r.field? = some ⟨r.place, 4⟩ := if_pos h

theorem field?_of_dir64 (h : r.type = RelocationBlock.dir64) : r.field? = some ⟨r.place, 8⟩ := by
  rw [field?, h]
  rfl

theorem field?_of_absolute (h : r.type = RelocationBlock.absolute) : r.field? = none := by
  rw [field?, h]
  rfl

theorem not_absolute {e : Extent} (h : r.field? = some e) : r.type ≠ RelocationBlock.absolute := by
  intro habsolute
  cases (field?_of_absolute habsolute).symm.trans h

theorem field?_of_other (hhighLow : r.type ≠ RelocationBlock.highLow)
    (hdir64 : r.type ≠ RelocationBlock.dir64) : r.field? = none := by
  rw [field?, if_neg hhighLow, if_neg hdir64]

/-! ### One entry -/

theorem adjust_eq (width offset : Nat) (adjustment : UInt64) (image : Bytes) :
    RelocationBlock.adjust width offset adjustment image =
      if Extent.Within ⟨offset, width⟩ image.length then .ok () (image.adjusted adjustment ⟨offset, width⟩)
      else .error (.error .unreadable) image := by
  rw [RelocationBlock.adjust, Step.bind_of_ok (Step.get_eq_ok.mpr ⟨rfl, rfl⟩), Bytes.word?_eq]
  by_cases h : Extent.Within ⟨offset, width⟩ image.length
  · rw [if_pos h, if_pos (show offset + width ≤ image.length from h)]
    rfl
  · rw [if_neg h, if_neg (show ¬offset + width ≤ image.length from h)]
    rfl

theorem apply_eq (hplace : r.place < UInt32.size) : r.apply adjustment image =
    if r.type = RelocationBlock.absolute then .ok () image
    else match r.field? with
      | some e => RelocationBlock.adjust e.length e.offset adjustment image
      | none => .error (.error (.unsupportedRelocation r.type)) image := by
  obtain ⟨address, haddress⟩ : ∃ address, add32 r.page (RelocationBlock.offsetOf r.entry) = .ok address :=
    ⟨_, if_pos hplace⟩
  have hnat : address.toNat = r.place := add32_eq_ok_iff.mp haddress
  rw [apply, RelocationBlock.applyEntry, Step.bind_of_ok (Step.ofHalting_eq_ok.mpr ⟨haddress, rfl⟩), hnat]
  change (if r.type = RelocationBlock.absolute then return ()
    else if r.type = RelocationBlock.highLow then RelocationBlock.adjust 4 r.place adjustment
    else if r.type = RelocationBlock.dir64 then RelocationBlock.adjust 8 r.place adjustment
    else Step.fail (.unsupportedRelocation r.type) : Step Bytes PeError Unit) image = _
  rw [field?]
  by_cases habsolute : r.type = RelocationBlock.absolute
  · rw [if_pos habsolute, if_pos habsolute]
    rfl
  · rw [if_neg habsolute, if_neg habsolute]
    by_cases hhighLow : r.type = RelocationBlock.highLow
    · rw [if_pos hhighLow, if_pos hhighLow]
    · rw [if_neg hhighLow, if_neg hhighLow]
      by_cases hdir64 : r.type = RelocationBlock.dir64
      · rw [if_pos hdir64, if_pos hdir64]
      · rw [if_neg hdir64, if_neg hdir64]
        rfl

theorem apply_of_applies (h : r.Applies image.length) :
    r.apply adjustment image = .ok () (r.field?.toList.foldl (Bytes.adjusted adjustment) image) := by
  obtain ⟨hplace, habsolute | ⟨e, hfield, hwithin⟩⟩ := h
  · rw [apply_eq hplace, if_pos habsolute, field?_of_absolute habsolute]
    rfl
  · have hfield' : r.field? = some e := hfield
    rw [apply_eq hplace, if_neg (not_absolute hfield'), hfield']
    exact (adjust_eq ..).trans (if_pos hwithin)

theorem apply_of_unnamed (h : UInt32.size ≤ r.place) :
    r.apply adjustment image = .error (.halt .overflow) image := by
  have hover : add32 r.page (RelocationBlock.offsetOf r.entry) = .error .overflow :=
    if_neg (Nat.not_lt.mpr h)
  exact Step.bind_of_error (Step.ofHalting_of_error hover)

theorem apply_of_unsupported (hplace : r.place < UInt32.size) (habsolute : r.type ≠ RelocationBlock.absolute)
    (hnone : r.field? = none) :
    r.apply adjustment image = .error (.error (.unsupportedRelocation r.type)) image := by
  rw [apply_eq hplace, if_neg habsolute, hnone]

theorem apply_of_outside {e : Extent} (hplace : r.place < UInt32.size) (hfield : r.field? = some e)
    (hout : ¬e.Within image.length) : r.apply adjustment image = .error (.error .unreadable) image := by
  rw [apply_eq hplace, if_neg (not_absolute hfield), hfield]
  exact (adjust_eq ..).trans (if_neg hout)

theorem apply_of_not_applies (adjustment : UInt64) (h : ¬r.Applies image.length) :
    ∃ failure, r.apply adjustment image = .error failure image := by
  by_cases hplace : r.place < UInt32.size
  · cases hfield : r.field? with
    | none =>
      have habsolute : r.type ≠ RelocationBlock.absolute := fun habsolute => h ⟨hplace, .inl habsolute⟩
      exact ⟨_, apply_of_unsupported hplace habsolute hfield⟩
    | some e => exact ⟨_, apply_of_outside hplace hfield fun hin => h ⟨hplace, .inr ⟨e, hfield, hin⟩⟩⟩
  · exact ⟨_, apply_of_unnamed (Nat.not_lt.mp hplace)⟩

theorem within_of_applies {size : Nat} (h : r.Applies size) : ∀ e ∈ r.field?.toList, e.Within size := by
  intro e he
  have hfield : r.field? = some e := Option.mem_toList.mp he
  obtain ⟨-, habsolute | ⟨f, hf, hwithin⟩⟩ := h
  · exact absurd habsolute (not_absolute hfield)
  · cases hfield.symm.trans hf
    exact hwithin

/-! ### All entries -/

theorem fields_cons (r : Relocation) (rs : List Relocation) :
    fields (r :: rs) = r.field?.toList ++ fields rs := by
  rw [fields, fields, List.filterMap_cons]
  cases r.field? <;> rfl

theorem mem_fields {e : Extent} (hr : r ∈ rs) (h : r.field? = some e) : e ∈ fields rs :=
  List.mem_filterMap.mpr ⟨r, hr, h⟩

theorem within_of_mem_fields {size : Nat} (h : ∀ r ∈ rs, r.Applies size) :
    ∀ e ∈ fields rs, e.Within size := by
  intro e he
  obtain ⟨r, hr, hfield⟩ := List.mem_filterMap.mp he
  exact within_of_applies (h r hr) e (Option.mem_toList.mpr hfield)

theorem forM_append (adjustment : UInt64) (h : ∀ r ∈ rs, r.Applies image.length) (rest : List Relocation) :
    (rs ++ rest).forM (apply adjustment) image =
      rest.forM (apply adjustment) ((fields rs).foldl (Bytes.adjusted adjustment) image) := by
  induction rs generalizing image with
  | nil => rfl
  | cons r rs ih =>
    obtain ⟨hr, hrs⟩ := List.forall_mem_cons.mp h
    have hlength := Bytes.length_foldl_adjusted (a := adjustment) (within_of_applies hr)
    change (apply adjustment r >>= fun _ => (rs ++ rest).forM (apply adjustment)) image = _
    rw [Step.bind_of_ok (apply_of_applies hr), ih (by rwa [hlength]), fields_cons, List.foldl_append]

/-- The first entry that does not apply decides how the list ends. -/
theorem forM_stops (rest : List Relocation) (h : ∀ r ∈ rs, r.Applies image.length) {failure : Fault PeError}
    (hr : ∀ bytes : Bytes, bytes.length = image.length → r.apply adjustment bytes = .error failure bytes) :
    (rs ++ r :: rest).forM (apply adjustment) image =
      .error failure ((fields rs).foldl (Bytes.adjusted adjustment) image) := by
  rw [forM_append adjustment h]
  exact Step.bind_of_error (hr _ (Bytes.length_foldl_adjusted (within_of_mem_fields h)))

theorem applies_of_forM (h : rs.forM (apply adjustment) image = .ok () image') :
    ∀ r ∈ rs, r.Applies image.length := by
  induction rs generalizing image with
  | nil => exact fun r hr => absurd hr List.not_mem_nil
  | cons r rs ih =>
    obtain ⟨between, hfirst, hrest⟩ := Step.forM_cons_eq_ok.mp h
    by_cases hr : r.Applies image.length
    · cases hfirst.symm.trans (apply_of_applies hr)
      have hrs := ih hrest
      rw [Bytes.length_foldl_adjusted (within_of_applies hr)] at hrs
      exact List.forall_mem_cons.mpr ⟨hr, hrs⟩
    · obtain ⟨failure, hfail⟩ := apply_of_not_applies adjustment hr
      cases hfirst.symm.trans hfail

theorem forM_eq_ok_iff : rs.forM (apply adjustment) image = .ok () image' ↔
    (∀ r ∈ rs, r.Applies image.length) ∧ (fields rs).foldl (Bytes.adjusted adjustment) image = image' := by
  constructor
  · intro hrun
    have hall := applies_of_forM hrun
    have hend := forM_append adjustment hall []
    rw [List.append_nil, hrun] at hend
    cases hend
    exact ⟨hall, rfl⟩
  · rintro ⟨hall, rfl⟩
    have hend := forM_append adjustment hall []
    rwa [List.append_nil] at hend

end Relocation
end PlatformInit
