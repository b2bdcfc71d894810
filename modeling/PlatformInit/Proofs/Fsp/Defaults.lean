import PlatformInit.Fsp.Component
import PlatformInit.Fsp.Upd
import PlatformInit.Proofs.Bytes.Overwriting
import PlatformInit.Proofs.Bytes.Slicing
import PlatformInit.Proofs.Step

/-!
The boot loader's fields in a configuration block.

A block names the fields `a` exactly when it holds the parts of `a` at their offsets, so what is written is
read back, and what a write does to the rest is a fact about places that lie apart.
-/
set_option autoImplicit false
namespace PlatformInit

namespace Bytes
variable {bytes bytes' part : Bytes} {offset : Nat} {parts : List (Nat × Bytes)}

theorem slice?_overwrite (hfits : offset + part.length ≤ bytes.length) :
    (bytes.overwrite offset part).slice? offset part.length = some part := by
  refine slice?_eq_some_iff.mpr ⟨bytes.take offset, bytes.drop (offset + part.length), ?_, ?_, rfl⟩
  · rw [overwrite, List.append_assoc]
  · rw [List.length_take]
    omega

theorem overwrite?_eq (bytes : Bytes) (offset : Nat) (part : Bytes) : bytes.overwrite? offset part =
    if offset + part.length ≤ bytes.length then some (bytes.overwrite offset part) else none := by
  simp only [overwrite?, reaches_iff]

theorem agree_of_slice? {length : Nat} (h : bytes.slice? offset length = some part)
    (h' : bytes'.slice? offset length = some part) : Agree ⟨offset, length⟩ bytes bytes' := by
  rintro i ⟨hstart, hend⟩
  obtain ⟨place, rfl⟩ := Nat.exists_eq_add_of_le hstart
  obtain rfl := length_of_slice? h
  have hplace : place + 1 ≤ part.length := Nat.lt_of_add_lt_add_left hend
  exact (u8?_within h hplace).trans (u8?_within h' hplace).symm

/-! ### Parts at their offsets -/

def extent (part : Nat × Bytes) : Extent := ⟨part.1, part.2.length⟩

def Holds (parts : List (Nat × Bytes)) (bytes : Bytes) : Prop :=
  ∀ part ∈ parts, bytes.slice? part.1 part.2.length = some part.2

theorem putAll_cons (part : Nat × Bytes) (parts : List (Nat × Bytes)) (bytes : Bytes) :
    putAll (part :: parts) bytes = if (extent part).Within bytes.length then
      putAll parts (bytes.overwrite part.1 part.2) else (bytes, false) := by
  rw [putAll, overwrite?_eq]
  by_cases hfits : part.1 + part.2.length ≤ bytes.length
  · rw [if_pos hfits]
    exact (if_pos hfits).symm
  · rw [if_neg hfits]
    exact (if_neg hfits).symm

theorem length_putAll (parts : List (Nat × Bytes)) (bytes : Bytes) :
    (putAll parts bytes).1.length = bytes.length := by
  induction parts generalizing bytes with
  | nil => rfl
  | cons part parts ih =>
    rw [putAll_cons]
    split
    · rename_i hfits
      exact (ih _).trans (length_overwrite hfits)
    · rfl

theorem getElem?_putAll {i : Nat} (h : ∀ part ∈ parts, ¬(extent part).Holds i) (bytes : Bytes) :
    (putAll parts bytes).1[i]? = bytes[i]? := by
  induction parts generalizing bytes with
  | nil => rfl
  | cons part parts ih =>
    obtain ⟨hpart, hparts⟩ := List.forall_mem_cons.mp h
    rw [putAll_cons]
    split
    · rename_i hfits
      exact (ih hparts _).trans ((getElem?_overwrite hfits i).trans (if_neg hpart))
    · rfl

theorem holds_putAll (bytes : Bytes) (hfits : ∀ part ∈ parts, (extent part).Within bytes.length)
    (hapart : parts.Pairwise fun part part' => (extent part).Apart (extent part')) :
    (putAll parts bytes).2 = true ∧ Holds parts (putAll parts bytes).1 := by
  induction parts generalizing bytes with
  | nil => exact ⟨rfl, nofun⟩
  | cons part parts ih =>
    obtain ⟨hpart, hparts⟩ := List.forall_mem_cons.mp hfits
    obtain ⟨hfirst, hrest⟩ := List.pairwise_cons.mp hapart
    have hlength : (bytes.overwrite part.1 part.2).length = bytes.length := length_overwrite hpart
    obtain ⟨hall, hheld⟩ := ih (bytes.overwrite part.1 part.2) (by rwa [hlength]) hrest
    rw [putAll_cons, if_pos hpart]
    refine ⟨hall, List.forall_mem_cons.mpr ⟨?_, hheld⟩⟩
    have hkept : Agree (extent part) (putAll parts (bytes.overwrite part.1 part.2)).1
        (bytes.overwrite part.1 part.2) := fun i hi =>
      getElem?_putAll (fun other hother hin => hfirst other hother i ⟨hi, hin⟩) _
    exact (slice?_congr (length_putAll parts _) hkept).trans (slice?_overwrite hpart)

/-! ### Words as parts -/

theorem u8?_eq_some_iff_slice {b : UInt8} :
    bytes.u8? offset = some b ↔ bytes.slice? offset 1 = some [b] := by
  constructor
  · intro h
    obtain ⟨hlt, hb⟩ := List.getElem?_eq_some_iff.mp h
    have hfits : offset + 1 ≤ bytes.length := hlt
    rw [slice?_eq, if_pos hfits, List.drop_eq_getElem_cons hlt, List.take_succ_cons, List.take_zero, hb]
  · intro h
    have hfirst : bytes.u8? (offset + 0) = Bytes.u8? [b] 0 := u8?_within h Nat.one_pos
    exact hfirst

theorem u32?_eq_some_iff_slice {n : UInt32} :
    bytes.u32? offset = some n ↔ bytes.slice? offset 4 = some (le32 n) := by
  rw [u32?, word?]
  cases hpart : bytes.slice? offset 4 with
  | none => simp only [Option.map_none, reduceCtorEq]
  | some part =>
    have hlength := length_of_slice? hpart
    have hlt := leValue_lt part
    rw [hlength] at hlt
    rw [Option.map_some, Option.map_some, Option.some.injEq, Option.some.injEq]
    constructor
    · rintro rfl
      rw [le32, UInt32.toNat_ofNat_of_lt' hlt, ← hlength, leBytes_leValue]
    · rintro rfl
      have hn : n.toNat < 1 <<< (8 * 4) := n.toNat_lt
      rw [le32, leValue_leBytes, Nat.mod_eq_of_lt hn, UInt32.ofNat_toNat]

end Bytes

open Bytes (Holds putAll extent)

namespace UpdArch
variable {upd : Bytes} {a : UpdArch}

def parts (a : UpdArch) : List (Nat × Bytes) :=
  [(offset, [a.revision]), (offset + 4, le32 a.nvsBuffer), (offset + 8, le32 a.stackBase),
    (offset + 12, le32 a.stackSize), (offset + 16, le32 a.tolumSize), (offset + 20, le32 a.bootMode)]

theorem write_eq (a : UpdArch) (upd : Bytes) : a.write upd = ((putAll a.parts upd).1,
    if (putAll a.parts upd).2 then .ok () else .error .configurationInvalid) := rfl

theorem parts_apart (a : UpdArch) :
    a.parts.Pairwise fun part part' => (extent part).Apart (extent part') := by
  simp [parts, extent, Extent.apart_iff]

theorem parts_within (a : UpdArch) (h : 0x38 ≤ upd.length) :
    ∀ part ∈ a.parts, (extent part).Within upd.length := by
  simp [parts, extent, Extent.Within, offset, UpdHeader.size]
  omega

theorem fields?_eq_some_iff : fields? upd = some a ↔
    upd.u8? offset = some a.revision ∧ upd.u32? (offset + 4) = some a.nvsBuffer ∧
      upd.u32? (offset + 8) = some a.stackBase ∧ upd.u32? (offset + 12) = some a.stackSize ∧
      upd.u32? (offset + 16) = some a.tolumSize ∧ upd.u32? (offset + 20) = some a.bootMode := by
  constructor
  · intro h
    simp only [fields?, Option.bind_eq_bind, Option.bind_eq_some_iff, Option.pure_def,
      Option.some.injEq] at h
    obtain ⟨_, hrevision, _, hnvs, _, hbase, _, hsize, _, htolum, _, hmode, rfl⟩ := h
    exact ⟨hrevision, hnvs, hbase, hsize, htolum, hmode⟩
  · rintro ⟨hrevision, hnvs, hbase, hsize, htolum, hmode⟩
    rw [fields?, hrevision, hnvs, hbase, hsize, htolum, hmode]
    rfl

theorem read_eq_ok : read upd = .ok a ↔ fields? upd = some a := by
  unfold read
  cases fields? upd with
  | none => exact ⟨nofun, nofun⟩
  | some b => rw [Except.ok.injEq, Option.some.injEq]

theorem read_eq_ok_iff : read upd = .ok a ↔ Holds a.parts upd := by
  rw [read_eq_ok, fields?_eq_some_iff]
  simp only [Holds, parts, List.forall_mem_cons, Bytes.u8?_eq_some_iff_slice,
    Bytes.u32?_eq_some_iff_slice, length_le32, List.length_cons, List.length_nil]
  simp

theorem read_of_short (h : upd.length < 0x38) : read upd = .error .configurationInvalid := by
  unfold read
  cases hfields : fields? upd with
  | none => rfl
  | some a =>
    have hmode := (fields?_eq_some_iff.mp hfields).2.2.2.2.2
    have hreach : 0x34 + 4 ≤ upd.length :=
      Bytes.le_length_of_slice? (Bytes.u32?_eq_some_iff_slice.mp hmode)
    omega

theorem exists_read (h : 0x38 ≤ upd.length) : ∃ a, read upd = .ok a := by
  have hword (place : Nat) (hplace : place + 4 ≤ 0x38) : ∃ n, upd.u32? place = some n := by
    rw [Bytes.u32?, Bytes.word?_eq, if_pos (Nat.le_trans hplace h)]
    exact ⟨_, rfl⟩
  have hrevision : upd.u8? offset = some (.ofNat (upd.numberAt 1 offset)) := by
    rw [Bytes.u8?_eq, if_pos (Nat.le_trans (by decide) h)]
  obtain ⟨nvsBuffer, hnvs⟩ := hword (offset + 4) (by decide)
  obtain ⟨stackBase, hbase⟩ := hword (offset + 8) (by decide)
  obtain ⟨stackSize, hsize⟩ := hword (offset + 12) (by decide)
  obtain ⟨tolumSize, htolum⟩ := hword (offset + 16) (by decide)
  obtain ⟨bootMode, hmode⟩ := hword (offset + 20) (by decide)
  exact ⟨⟨_, nvsBuffer, stackBase, stackSize, tolumSize, bootMode⟩,
    read_eq_ok.mpr (fields?_eq_some_iff.mpr ⟨hrevision, hnvs, hbase, hsize, htolum, hmode⟩)⟩

/-- What is written is read back, and the bytes between and around the fields stay. -/
theorem write_of_le (a : UpdArch) (h : 0x38 ≤ upd.length) :
    ∃ upd', a.write upd = (upd', .ok ()) ∧ read upd' = .ok a ∧ upd'.length = upd.length ∧
      ∀ i, i ≠ 0x20 → ¬(0x24 ≤ i ∧ i < 0x38) → upd'[i]? = upd[i]? := by
  obtain ⟨hall, hholds⟩ := Bytes.holds_putAll upd (a.parts_within h) a.parts_apart
  refine ⟨(putAll a.parts upd).1, ?_, read_eq_ok_iff.mpr hholds, Bytes.length_putAll _ _, ?_⟩
  · rw [write_eq, hall]
    rfl
  · intro i hrevision hwords
    refine Bytes.getElem?_putAll ?_ upd
    simp [parts, extent, Extent.Holds, offset, UpdHeader.size]
    omega

/-- The fields with the boot loader's values for those that it owns. -/
def owned (a : UpdArch) : UpdArch :=
  { a with tolumSize := 0, bootMode := BootMode.fullConfiguration, nvsBuffer := 0 }

def others (a : UpdArch) : List (Nat × Bytes) :=
  [(0x20, [a.revision]), (0x28, le32 a.stackBase), (0x2C, le32 a.stackSize)]

theorem mem_parts_of_others (a : UpdArch) : ∀ part ∈ a.others, part ∈ a.parts ∧ part ∈ a.owned.parts := by
  simp [others, parts, owned, offset, UpdHeader.size]

end UpdArch

namespace Upd
variable {upd : Bytes}

/-- The block is a default block with the boot loader's own values in the words that it owns. -/
structure OwnFields (default upd : Bytes) : Prop where
  length : upd.length = default.length
  nvsBuffer : upd.u32? 0x24 = some 0
  tolumSize : upd.u32? 0x30 = some 0
  bootMode : upd.u32? 0x34 = some BootMode.fullConfiguration
  elsewhere : ∀ i, ¬(0x24 ≤ i ∧ i < 0x28) → ¬(0x30 ≤ i ∧ i < 0x38) → upd[i]? = default[i]?

theorem applyLoaderDefaults_of_short (h : upd.length < 0x38) :
    applyLoaderDefaults upd = (upd, .error .configurationInvalid) := by
  rw [applyLoaderDefaults, UpdArch.read_of_short h]

theorem applyLoaderDefaults_of_le (h : 0x38 ≤ upd.length) :
    ∃ upd', applyLoaderDefaults upd = (upd', .ok ()) ∧ OwnFields upd upd' := by
  obtain ⟨a, hread⟩ := UpdArch.exists_read h
  obtain ⟨upd', hwrite, hback, hlength, hrest⟩ := a.owned.write_of_le h
  obtain ⟨-, hnvs, -, -, htolum, hmode⟩ := UpdArch.fields?_eq_some_iff.mp (UpdArch.read_eq_ok.mp hback)
  refine ⟨upd', ?_, hlength, hnvs, htolum, hmode, fun i hnvs hwords => ?_⟩
  · rw [applyLoaderDefaults, hread]
    exact hwrite
  have hothers : ∀ part ∈ a.others, part.1 ≤ i ∧ i < part.1 + part.2.length → upd'[i]? = upd[i]? := by
    intro part hpart hi
    obtain ⟨hbefore, hafter⟩ := a.mem_parts_of_others part hpart
    exact Bytes.agree_of_slice? (UpdArch.read_eq_ok_iff.mp hback part hafter)
      (UpdArch.read_eq_ok_iff.mp hread part hbefore) i hi
  simp only [UpdArch.others, List.forall_mem_cons, length_le32, List.length_singleton] at hothers
  obtain ⟨hrevision, hbase, hsize, -⟩ := hothers
  by_cases hbyte : i = 0x20
  · exact hrevision (by omega)
  by_cases hfirst : 0x28 ≤ i ∧ i < 0x2C
  · exact hbase hfirst
  by_cases hsecond : 0x2C ≤ i ∧ i < 0x30
  · exact hsize hsecond
  exact hrest i hbyte (by omega)

theorem checkMemory_eq_ok (h : checkMemory upd = .ok ()) : upd.u64? 0 = some UpdHeader.memoryMagic ∧
    ∃ stackBase, upd.u32? 0x28 = some stackBase ∧ stackBase ≠ 0 := by
  obtain ⟨header, hheader, h⟩ := Fallible.bind_eq_ok.mp h
  obtain ⟨arch, harch, h⟩ := Fallible.bind_eq_ok.mp h
  split at h
  · rename_i hchecks
    obtain ⟨hsignature, hstack, -⟩ := hchecks
    obtain ⟨-, -, hbase, -⟩ := UpdArch.fields?_eq_some_iff.mp (UpdArch.read_eq_ok.mp harch)
    refine ⟨?_, arch.stackBase, hbase, hstack⟩
    unfold UpdHeader.read at hheader
    split at hheader
    · rename_i hfield _
      cases hheader
      rw [hfield]
      exact congrArg some hsignature
    · cases hheader
  · cases h

end Upd

theorem FspComponent.slice?_of_ofImage {image : Bytes} {base : UInt64} {c : FspComponent}
    (h : FspComponent.ofImage image base = .ok c) :
    image.slice? c.header.configOffset.toNat c.header.configSize.toNat = some c.defaultUpd := by
  unfold ofImage at h
  split at h
  · cases h
  split at h
  · cases h
  split at h
  · rename_i hfits
    cases h
    rw [Bytes.slice?_eq, if_pos hfits]
    rfl
  · cases h

end PlatformInit
