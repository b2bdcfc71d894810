import PlatformInit.Proofs.Bytes.Reading

/-!
Writing in place: which bytes a write leaves alone, and when two writes can change places.
-/
set_option autoImplicit false
namespace PlatformInit

/-- So many bytes from an offset on. -/
structure Extent where
  offset : Nat
  length : Nat
  deriving DecidableEq

namespace Extent

def Holds (e : Extent) (i : Nat) : Prop := e.offset ≤ i ∧ i < e.offset + e.length

def Within (e : Extent) (size : Nat) : Prop := e.offset + e.length ≤ size

def Apart (e f : Extent) : Prop := ∀ i, ¬(e.Holds i ∧ f.Holds i)

theorem Apart.symm {e f : Extent} (h : Apart e f) : Apart f e := fun i hi => h i hi.symm

theorem apart_iff {e f : Extent} : Apart e f ↔
    e.length = 0 ∨ f.length = 0 ∨ e.offset + e.length ≤ f.offset ∨ f.offset + f.length ≤ e.offset := by
  constructor
  · intro h
    have hfirst := h (max e.offset f.offset)
    unfold Holds at hfirst
    omega
  · intro h i hi
    unfold Holds at hi
    omega

instance (e : Extent) (i : Nat) : Decidable (e.Holds i) := inferInstanceAs (Decidable (_ ∧ _))

instance (e : Extent) (size : Nat) : Decidable (e.Within size) := inferInstanceAs (Decidable (_ ≤ _))

instance (e f : Extent) : Decidable (e.Apart f) := decidable_of_iff _ apart_iff.symm

end Extent

namespace Bytes

def Agree (e : Extent) (bytes bytes' : Bytes) : Prop := ∀ i, e.Holds i → bytes[i]? = bytes'[i]?

theorem drop_take_congr {bytes bytes' : Bytes} {e : Extent} (h : Agree e bytes bytes') :
    (bytes.drop e.offset).take e.length = (bytes'.drop e.offset).take e.length := by
  apply List.ext_getElem?
  intro i
  rw [List.getElem?_take, List.getElem?_take]
  split
  · rw [List.getElem?_drop, List.getElem?_drop]
    exact h _ ⟨by omega, by omega⟩
  · rfl

theorem numberAt_congr {bytes bytes' : Bytes} {e : Extent} (h : Agree e bytes bytes') :
    bytes.numberAt e.length e.offset = bytes'.numberAt e.length e.offset := by
  rw [numberAt, numberAt, drop_take_congr h]

theorem slice?_congr {bytes bytes' : Bytes} {e : Extent} (hlength : bytes.length = bytes'.length)
    (h : Agree e bytes bytes') : bytes.slice? e.offset e.length = bytes'.slice? e.offset e.length := by
  rw [slice?_eq, slice?_eq, hlength, drop_take_congr h]

theorem word?_congr {bytes bytes' : Bytes} {e : Extent} (hlength : bytes.length = bytes'.length)
    (h : Agree e bytes bytes') : bytes.word? e.length e.offset = bytes'.word? e.length e.offset := by
  rw [word?, word?, slice?_congr hlength h]

theorem u64?_congr {bytes bytes' : Bytes} {offset : Nat} (hlength : bytes.length = bytes'.length)
    (h : Agree ⟨offset, 8⟩ bytes bytes') : bytes.u64? offset = bytes'.u64? offset :=
  congrArg (Option.map UInt64.ofNat) (word?_congr hlength h)

section
variable {bytes part : Bytes} {offset : Nat}

theorem getElem?_overwrite (hfits : offset + part.length ≤ bytes.length) (i : Nat) :
    (bytes.overwrite offset part)[i]? =
      if Extent.Holds ⟨offset, part.length⟩ i then part[i - offset]? else bytes[i]? := by
  have htake : (bytes.take offset).length = offset := by
    rw [List.length_take]
    omega
  rw [overwrite, List.append_assoc]
  by_cases hin : Extent.Holds ⟨offset, part.length⟩ i
  · rw [if_pos hin]
    change offset ≤ i ∧ i < offset + part.length at hin
    rw [List.getElem?_append_right (by omega), htake, List.getElem?_append_left (by omega)]
  · rw [if_neg hin]
    change ¬(offset ≤ i ∧ i < offset + part.length) at hin
    by_cases hbefore : i < offset
    · rw [List.getElem?_append_left (by omega), List.getElem?_take, if_pos hbefore]
    · rw [List.getElem?_append_right (by omega), htake, List.getElem?_append_right (by omega),
        List.getElem?_drop]
      congr 1
      omega

theorem agree_overwrite (hfits : offset + part.length ≤ bytes.length) {e : Extent}
    (hapart : e.Apart ⟨offset, part.length⟩) : Agree e (bytes.overwrite offset part) bytes := by
  intro i hi
  rw [getElem?_overwrite hfits, if_neg fun hwritten => hapart i ⟨hi, hwritten⟩]

theorem overwrite_zero (bytes part : Bytes) : bytes.overwrite 0 part = part ++ bytes.drop part.length := by
  rw [overwrite, List.take_zero, List.nil_append, Nat.zero_add]

theorem overwrite_append {part' : Bytes} (hfits : offset + (part ++ part').length ≤ bytes.length) :
    (bytes.overwrite offset part).overwrite (offset + part.length) part' =
      bytes.overwrite offset (part ++ part') := by
  rw [List.length_append] at hfits
  have hlength : (bytes.take offset ++ part).length = offset + part.length := by
    rw [List.length_append, List.length_take]
    omega
  have hbehind : offset + part.length + part'.length - (offset + part.length) = part'.length := by
    omega
  rw [overwrite, overwrite, overwrite, List.take_left' hlength, List.drop_append, hlength, hbehind,
    List.drop_eq_nil_of_le (by omega), List.nil_append, List.drop_drop, List.length_append, ← Nat.add_assoc]
  simp only [List.append_assoc]

theorem overwrite_comm {part' : Bytes} {offset' : Nat} (hfits : offset + part.length ≤ bytes.length)
    (hfits' : offset' + part'.length ≤ bytes.length)
    (hapart : Extent.Apart ⟨offset, part.length⟩ ⟨offset', part'.length⟩) :
    (bytes.overwrite offset part).overwrite offset' part' =
      (bytes.overwrite offset' part').overwrite offset part := by
  have hlength := length_overwrite hfits
  have hlength' := length_overwrite hfits'
  apply List.ext_getElem?
  intro i
  rw [getElem?_overwrite (hlength ▸ hfits'), getElem?_overwrite hfits,
    getElem?_overwrite (hlength' ▸ hfits), getElem?_overwrite hfits']
  by_cases hfirst : Extent.Holds ⟨offset, part.length⟩ i
  · rw [if_neg fun hsecond => hapart i ⟨hfirst, hsecond⟩, if_pos hfirst, if_pos hfirst]
  · rw [if_neg hfirst, if_neg hfirst]

theorem overwrite_overwrite {part' : Bytes} (hfits : offset + part.length ≤ bytes.length)
    (hlength : part'.length = part.length) :
    (bytes.overwrite offset part).overwrite offset part' = bytes.overwrite offset part' := by
  apply List.ext_getElem?
  intro i
  rw [getElem?_overwrite (by rw [length_overwrite hfits, hlength]; exact hfits),
    getElem?_overwrite hfits, getElem?_overwrite (hlength ▸ hfits), hlength]
  split <;> rfl

theorem numberAt_overwrite {width : Nat} (hfits : offset + width ≤ bytes.length) (n : Nat) :
    (bytes.overwrite offset (leBytes width n)).numberAt width offset = n % 1 <<< (8 * width) := by
  have hpart : ((bytes.overwrite offset (leBytes width n)).drop offset).take width = leBytes width n := by
    rw [overwrite, List.append_assoc, List.drop_left' (by rw [List.length_take]; omega),
      List.take_left' (length_leBytes width n)]
  rw [numberAt, hpart, leValue_leBytes]

theorem overwrite_numberAt {width : Nat} (hfits : offset + width ≤ bytes.length) :
    bytes.overwrite offset (leBytes width (bytes.numberAt width offset)) = bytes := by
  have hlength : ((bytes.drop offset).take width).length = width := by
    rw [List.length_take, List.length_drop]
    omega
  have hpart : leBytes width (bytes.numberAt width offset) = (bytes.drop offset).take width := by
    have hback := leBytes_leValue ((bytes.drop offset).take width)
    rwa [hlength] at hback
  rw [hpart, overwrite, hlength, ← List.drop_drop, List.append_assoc, List.take_append_drop,
    List.take_append_drop]

/-! ### Words of 64 bits -/

theorem u64?_eq_some {n : UInt64} : bytes.u64? offset = some n ↔
    offset + 8 ≤ bytes.length ∧ bytes.numberAt 8 offset = n.toNat := by
  rw [u64?, word?_eq]
  by_cases hfits : offset + 8 ≤ bytes.length
  · rw [if_pos hfits, Option.map_some, Option.some.injEq, and_iff_right hfits]
    have hlt := numberAt_lt bytes 8 offset
    constructor
    · rintro rfl
      exact (UInt64.toNat_ofNat_of_lt' hlt).symm
    · intro hnumber
      rw [hnumber, UInt64.ofNat_toNat]
  · rw [if_neg hfits]
    exact ⟨nofun, fun hand => absurd hand.1 hfits⟩

theorem u64?_overwrite (hfits : offset + 8 ≤ bytes.length) (n : UInt64) :
    (bytes.overwrite offset (le64 n)).u64? offset = some n := by
  refine u64?_eq_some.mpr ⟨?_, ?_⟩
  · rwa [length_overwrite (by rwa [length_le64])]
  · rw [le64, numberAt_overwrite hfits]
    exact Nat.mod_eq_of_lt n.toNat_lt

theorem overwrite_u64? {n : UInt64} (h : bytes.u64? offset = some n) :
    bytes.overwrite offset (le64 n) = bytes := by
  obtain ⟨hfits, hnumber⟩ := u64?_eq_some.mp h
  rw [le64, ← hnumber, overwrite_numberAt hfits]

end
end Bytes
end PlatformInit
