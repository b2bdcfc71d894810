import Mathlib.Data.List.Pairwise
import PlatformInit.Proofs.Volume.Entries
import PlatformInit.Proofs.Volume.Header

/-!
Files lie inside their volume and sections inside their file, one behind the other.

Every entry takes a header of its own besides its body, which bounds how many there are. Nothing that is
read of a volume depends on bytes behind it.
-/
set_option autoImplicit false
namespace PlatformInit

namespace Bytes

/-- The parts are slices of the bytes at rising places, and none reaches into the next one. -/
def InOrder (bytes : Bytes) (parts : List Bytes) : Prop :=
  ∃ placed : List (Nat × Bytes), placed.map (·.2) = parts ∧
    (∀ p ∈ placed, bytes.slice? p.1 p.2.length = some p.2) ∧
    placed.Pairwise fun p q => p.1 < q.1 ∧ p.1 + p.2.length ≤ q.1

/-- The parts lie in the bytes from `start` on, each behind at least `header` bytes of its own. -/
inductive Strung (bytes : Bytes) (header : Nat) : Nat → List Bytes → Prop
  | nil (start : Nat) : Strung bytes header start []
  | cons {start place : Nat} {part : Bytes} {rest : List Bytes} (behind : start + header ≤ place)
      (slice : bytes.slice? place part.length = some part)
      (hrest : Strung bytes header (place + part.length) rest) : Strung bytes header start (part :: rest)

namespace Strung

variable {bytes : Bytes} {header start : Nat} {parts : List Bytes}

theorem mono (h : Strung bytes header start parts) {earlier : Nat} (hle : earlier ≤ start) :
    Strung bytes header earlier parts := by
  cases h with
  | nil => exact .nil earlier
  | cons behind slice hrest => exact .cons (Nat.le_trans (Nat.add_le_add_right hle header) behind) slice hrest

theorem mul_length_le (h : Strung bytes header start parts) : header * parts.length ≤ bytes.length - start := by
  induction h with
  | nil => exact Nat.zero_le _
  | @cons start place part rest behind slice _ ih =>
    have hfits := le_length_of_slice? slice
    rw [List.length_cons, Nat.mul_succ]
    omega

theorem length_le (h : Strung bytes header start parts) {part : Bytes} (hpart : part ∈ parts) :
    part.length ≤ bytes.length := by
  induction h with
  | nil => cases hpart
  | cons behind slice _ ih =>
    have hfits := le_length_of_slice? slice
    rcases List.mem_cons.mp hpart with rfl | hrest
    · omega
    · exact ih hrest

theorem inOrder (h : Strung bytes header start parts) (hpos : 0 < header) : bytes.InOrder parts := by
  suffices ∃ placed : List (Nat × Bytes), placed.map (·.2) = parts ∧ (∀ p ∈ placed, start + header ≤ p.1) ∧
      (∀ p ∈ placed, bytes.slice? p.1 p.2.length = some p.2) ∧
      placed.Pairwise fun p q => p.1 < q.1 ∧ p.1 + p.2.length ≤ q.1 by
    obtain ⟨placed, hparts, -, hplaced⟩ := this
    exact ⟨placed, hparts, hplaced⟩
  induction h with
  | nil => exact ⟨[], rfl, List.forall_mem_nil _, List.forall_mem_nil _, .nil⟩
  | @cons start place part rest behind slice _ ih =>
    obtain ⟨placed, hparts, hbehind, hslices, hapart⟩ := ih
    refine ⟨(place, part) :: placed, congrArg (part :: ·) hparts, ?_, ?_, ?_⟩
    · refine List.forall_mem_cons.mpr ⟨behind, fun p hp => ?_⟩
      have := hbehind p hp
      omega
    · exact List.forall_mem_cons.mpr ⟨slice, hslices⟩
    · refine List.pairwise_cons.mpr ⟨fun p hp => ?_, hapart⟩
      have := hbehind p hp
      dsimp only
      omega

end Strung
end Bytes

theorem Section.walk_strung (bytes : Bytes) (offset : Nat) :
    bytes.Strung 4 offset ((walk bytes offset).map (·.body)) := by
  fun_induction walk bytes offset with
  | case1 offset => exact .nil offset
  | case2 offset s stop hfound ih =>
    obtain ⟨header, hheader, hslice, rfl⟩ := readAt?_eq_some hfound
    exact .cons (by omega) hslice (ih.mono (le_roundUp (by decide)))

namespace FirmwareFile

theorem walk_strung (bytes : Bytes) (offset : Nat) :
    bytes.Strung headerSize offset ((walk bytes offset).items.map (·.body)) := by
  fun_induction walk bytes offset with
  | case1 offset => exact .nil offset
  | case2 offset => exact .nil offset
  | case3 offset f stop hfound _ ih =>
    have hstop := readAt_stop hfound
    exact ih.mono (Nat.le_trans (Nat.le_of_lt hstop.1) (le_roundUp (by decide)))
  | case4 offset f stop hfound _ ih =>
    obtain ⟨header, hheader, hslice, rfl⟩ := readAt_eq_some hfound
    exact .cons (by omega) hslice (ih.mono (le_roundUp (by decide)))

theorem kind_ne_pad_of_walk (bytes : Bytes) (offset : Nat) : ∀ f ∈ (walk bytes offset).items, f.kind ≠ pad := by
  fun_induction walk bytes offset with
  | case1 => exact List.forall_mem_nil _
  | case2 => exact List.forall_mem_nil _
  | case3 offset f stop hfound _ ih => exact ih
  | case4 offset f stop hfound hkind ih => exact List.forall_mem_cons.mpr ⟨hkind, ih⟩

theorem sections_inOrder (f : FirmwareFile) :
    f.body.InOrder (f.sections.map (·.body)) ∧ f.sections.length ≤ f.body.length / 4 := by
  have hstrung := Section.walk_strung f.body 0
  have hlength := hstrung.mul_length_le
  rw [List.length_map] at hlength
  change 4 * f.sections.length ≤ _ at hlength
  exact ⟨hstrung.inOrder (by decide), by omega⟩

end FirmwareFile

namespace Volume

theorem read_of_take_eq {bytes bytes' : Bytes} {v : Volume} (h : Volume.read bytes = .ok v)
    (hsame : bytes'.take (max v.header.length.toNat VolumeHeader.size) =
      bytes.take (max v.header.length.toNat VolumeHeader.size)) : Volume.read bytes' = .ok v := by
  obtain ⟨hheader, hbytes⟩ := read_eq_ok.mp h
  have hcovered : 0 + v.header.length.toNat ≤ max v.header.length.toNat VolumeHeader.size := by omega
  refine read_eq_ok.mpr ⟨?_, ?_⟩
  · rw [← VolumeHeader.read_take (Nat.le_max_right _ _), hsame, VolumeHeader.read_take (Nat.le_max_right _ _),
      hheader]
  · rw [← Bytes.slice?_take hcovered, hsame, Bytes.slice?_take hcovered, hbytes]

/-- The files of a volume, as far as the walk over them gets, lie in the bytes that its length covers, one
behind the other, and so do the sections of each of them in its body. Pads are left out, every entry takes
room for its header, and bytes behind the volume have no influence. -/
theorem files_contained {bytes : Bytes} {v : Volume} (h : Volume.read bytes = .ok v) :
    Bytes.InOrder (bytes.take v.header.length.toNat) (v.files.items.map (·.body)) ∧
      (∀ f ∈ v.files.items, f.kind ≠ FirmwareFile.pad) ∧
      v.files.items.length ≤ v.header.length.toNat / 24 ∧
      (∀ f ∈ v.files.items, f.body.InOrder (f.sections.map (·.body)) ∧
        f.sections.length ≤ f.body.length / 4) ∧
      ∀ bytes' : Bytes, bytes'.take (max v.header.length.toNat VolumeHeader.size) =
        bytes.take (max v.header.length.toNat VolumeHeader.size) → Volume.read bytes' = .ok v := by
  obtain ⟨-, hbytes⟩ := read_eq_ok.mp h
  have hlength := Bytes.length_of_slice? hbytes
  have hfits := Bytes.le_length_of_slice? hbytes
  have hcovered : v.bytes = bytes.take v.header.length.toNat := by
    rw [Bytes.slice?_eq, if_pos hfits, List.drop_zero] at hbytes
    exact (Option.some.inj hbytes).symm
  have hstrung := FirmwareFile.walk_strung v.bytes v.filesStart
  have hcount := hstrung.mul_length_le
  rw [List.length_map, hlength, FirmwareFile.headerSize] at hcount
  change 24 * v.files.items.length ≤ _ at hcount
  refine ⟨?_, FirmwareFile.kind_ne_pad_of_walk _ _, by omega, fun f _ => f.sections_inOrder,
    fun bytes' => read_of_take_eq h⟩
  rw [← hcovered]
  exact hstrung.inOrder (by decide)

def plainHeader (length : UInt64) : VolumeHeader :=
  ⟨Guid.fileSystem2, length, VolumeHeader.magic, 0, 0x38, 0, 0, 2⟩

/-- An empty file, and a large one whose size reaches behind the last address. -/
def overlongVolume : Bytes :=
  (plainHeader 0x70).toBytes (List.replicate 0x10 0) 0 ++
    (Guid.zero.toBytes ++ [0, 0, FirmwareFile.raw, 0] ++ leBytes 3 24 ++ [0]) ++
    (Guid.zero.toBytes ++ [0, 0, FirmwareFile.raw, FirmwareFile.largeFile, 0, 0, 0, 0] ++ le64 (-1))

theorem files_contained_overlong : Volume.read overlongVolume = .ok ⟨plainHeader 0x70, overlongVolume⟩ ∧
    (Volume.mk (plainHeader 0x70) overlongVolume).files.items.length ≤ 4 ∧
    ∀ tail, Volume.read (overlongVolume ++ tail) = .ok ⟨plainHeader 0x70, overlongVolume⟩ := by
  have hread : Volume.read overlongVolume = .ok ⟨plainHeader 0x70, overlongVolume⟩ := rfl
  obtain ⟨-, -, hcount, -, htail⟩ := files_contained hread
  exact ⟨hread, hcount, fun tail => htail _ (List.take_append_of_le_length (by decide))⟩

end Volume
end PlatformInit
