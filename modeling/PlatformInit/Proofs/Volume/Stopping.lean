import Mathlib.Logic.Relation
import PlatformInit.Proofs.Volume.CheckedWalk

/-!
When the walk over a volume stops the machine instead of ending.

That is at a header whose size reaches behind the last address, and nowhere else. Such a header is
`Overlong`, and `MeetsOverlong` says that a walk comes to one. Every other header that does not fit ends
the walk, and sections always do.
-/
set_option autoImplicit false
namespace PlatformInit

namespace FirmwareFile

/-- The header at `offset` declares a size that reaches behind the last address. -/
def Overlong (bytes : Bytes) (offset : Nat) : Prop :=
  ∃ e, headerAt? bytes offset = some e ∧ UInt64.size ≤ offset + e.size

/-- There is a file at `offset`, and `next` is where another one can be behind it. -/
def FollowedBy (bytes : Bytes) (offset next : Nat) : Prop :=
  ∃ f stop, readAt bytes offset = .ok (some (f, stop)) ∧ next = roundUp 8 stop

def MeetsOverlong (bytes : Bytes) (offset : Nat) : Prop :=
  ∃ place, Relation.ReflTransGen (FollowedBy bytes) offset place ∧ Overlong bytes place

variable {bytes : Bytes} {offset : Nat}

/-! ### One header -/

theorem readAt_eq_error {h : Halt} :
    readAt bytes offset = .error h ↔ Overlong bytes offset ∧ h = .overflow := by
  rw [readAt]
  constructor
  · intro hread
    split at hread
    · cases hread
    · rename_i e he
      rw [fit64] at hread
      by_cases hfits : offset + e.size < UInt64.size
      · rw [if_pos hfits] at hread
        cases hread
      · rw [if_neg hfits] at hread
        cases hread
        exact ⟨⟨e, he, Nat.le_of_not_lt hfits⟩, rfl⟩
  · rintro ⟨⟨e, he, hsize⟩, rfl⟩
    have hsum : fit64 (offset + e.size) = .error .overflow := if_neg (Nat.not_lt.mpr hsize)
    rw [he]
    simp only [hsum]

theorem readAt_of_overlong (h : Overlong bytes offset) : readAt bytes offset = .error .overflow :=
  readAt_eq_error.mpr ⟨h, rfl⟩

theorem walk_of_misfit (hnot : ¬Overlong bytes offset)
    (hmisfit : ∀ e, headerAt? bytes offset = some e → bytes.length < offset + e.size) :
    walk bytes offset = .done := by
  refine walk_of_none ?_
  rw [readAt]
  cases he : headerAt? bytes offset with
  | none => rfl
  | some e =>
    have hlong := hmisfit e he
    have hsize := (headerLength_of_headerAt? he).2
    have hsum : fit64 (offset + e.size) = .ok (offset + e.size) :=
      fit64_of_lt (Nat.lt_of_not_le fun hle => hnot ⟨e, he, hle⟩)
    have hbody : bytes.slice? (offset + e.headerLength) (e.size - e.headerLength) = none := by
      rw [Bytes.slice?_eq, if_neg (by omega)]
    simp only [hsum, hbody, Option.map_none]

theorem large_of_overlong {e : Entry} (hbytes : bytes.Addressable) (he : headerAt? bytes offset = some e)
    (hsize : UInt64.size ≤ offset + e.size) : e.attributes &&& largeFile ≠ 0 := by
  intro hsmall
  obtain ⟨hwithin, hextent, -⟩ := headerAt?_inv he
  have hlt := (extent?_le hextent).2 hsmall
  have h64 : UInt64.size = 0x10000000000000000 := rfl
  rw [Bytes.Addressable] at hbytes
  omega

/-! ### The walk -/

theorem meetsOverlong_of_some {f : FirmwareFile} {stop : Nat} (h : readAt bytes offset = .ok (some (f, stop))) :
    MeetsOverlong bytes offset ↔ MeetsOverlong bytes (roundUp 8 stop) := by
  constructor
  · rintro ⟨place, hreach, hoverlong⟩
    rcases hreach.cases_head with rfl | ⟨next, ⟨f', stop', hread, rfl⟩, hrest⟩
    · rw [readAt_of_overlong hoverlong] at h
      cases h
    · rw [h] at hread
      cases hread
      exact ⟨place, hrest, hoverlong⟩
  · rintro ⟨place, hreach, hoverlong⟩
    exact ⟨place, hreach.head ⟨f, stop, h, rfl⟩, hoverlong⟩

theorem not_meetsOverlong_of_none (h : readAt bytes offset = .ok none) : ¬MeetsOverlong bytes offset := by
  rintro ⟨place, hreach, hoverlong⟩
  rcases hreach.cases_head with rfl | ⟨next, ⟨f, stop, hread, -⟩, -⟩
  · rw [readAt_of_overlong hoverlong] at h
    cases h
  · rw [h] at hread
    cases hread

/-- A walk that stops the machine has come to such a header, and one that does not ends. -/
theorem toList_walk (bytes : Bytes) (offset : Nat) :
    MeetsOverlong bytes offset ∧ (walk bytes offset).toList = .error .overflow ∨
      ¬MeetsOverlong bytes offset ∧ (walk bytes offset).toList = .ok (walk bytes offset).items := by
  fun_induction walk bytes offset with
  | case1 offset h hfound =>
    obtain ⟨hoverlong, rfl⟩ := readAt_eq_error.mp hfound
    exact .inl ⟨⟨offset, .refl, hoverlong⟩, rfl⟩
  | case2 offset hfound => exact .inr ⟨not_meetsOverlong_of_none hfound, rfl⟩
  | case3 offset f stop hfound _ ih => rwa [meetsOverlong_of_some hfound]
  | case4 offset f stop hfound _ ih =>
    rw [meetsOverlong_of_some hfound]
    refine ih.imp (And.imp_right fun hrest => ?_) (And.imp_right fun hrest => ?_)
    · rw [Walk.toList, hrest]
      rfl
    · rw [Walk.toList, hrest]
      rfl

end FirmwareFile

namespace Volume

open FirmwareFile (MeetsOverlong Overlong headerAt? largeFile)

/-- What a search answers when it does not stop the machine: the body of the section among the files that
the walk gets to. -/
def found (v : Volume) (fileKind sectionKind : UInt8) : Fallible VolumeError Bytes :=
  match (v.files.items.find? (·.kind == fileKind)).bind (·.sections.find? (·.kind == sectionKind)) with
  | none => .fail .notFound
  | some s => .ok s.body

theorem found_ne_halt (v : Volume) (fileKind sectionKind : UInt8) (why : Halt) :
    v.found fileKind sectionKind ≠ .error (.halt why) := by
  rw [found]
  split <;> nofun

theorem findSection_of_mem {v : Volume} {f : FirmwareFile} (hf : f ∈ v.files.items) (sectionKind : UInt8) :
    v.findSection f.kind sectionKind = v.found f.kind sectionKind := by
  have hsome : (v.files.items.find? (·.kind == f.kind)).isSome :=
    List.find?_isSome.mpr ⟨f, hf, beq_self_eq_true _⟩
  obtain ⟨first, hfirst⟩ := Option.isSome_iff_exists.mp hsome
  rw [findSection_eq, found, hfirst]
  rfl

section
variable {v : Volume} {fileKind : UInt8} (hnone : ∀ f ∈ v.files.items, f.kind ≠ fileKind)
include hnone

theorem find?_eq_none : v.files.items.find? (·.kind == fileKind) = none := by
  refine List.find?_eq_none.mpr fun f hf => ?_
  rw [beq_iff_eq]
  exact hnone f hf

theorem findSection_of_not_mem (sectionKind : UInt8) : v.findSection fileKind sectionKind =
    match v.files.toList with
    | .error h => .error (.halt h)
    | .ok _ => .fail .notFound := by
  have hfind := findSection_eq v fileKind sectionKind
  rw [find?_eq_none hnone] at hfind
  exact hfind

theorem found_of_not_mem (sectionKind : UInt8) : v.found fileKind sectionKind = .fail .notFound := by
  rw [found, find?_eq_none hnone]
  rfl

end

section
variable {v : Volume}

theorem toList_files_of_meets (h : MeetsOverlong v.bytes v.filesStart) : v.files.toList = .error .overflow := by
  rcases FirmwareFile.toList_walk v.bytes v.filesStart with ⟨-, hwalk⟩ | ⟨hnot, -⟩
  · exact hwalk
  · exact absurd h hnot

theorem toList_files_of_not_meets (h : ¬MeetsOverlong v.bytes v.filesStart) :
    v.files.toList = .ok v.files.items := by
  rcases FirmwareFile.toList_walk v.bytes v.filesStart with ⟨hmeets, -⟩ | ⟨-, hwalk⟩
  · exact absurd hmeets h
  · exact hwalk

end

theorem findSection_eq_halt (v : Volume) (fileKind sectionKind : UInt8) :
    (v.findSection fileKind sectionKind = .error (.halt .overflow) ↔
      MeetsOverlong v.bytes v.filesStart ∧ ∀ f ∈ v.files.items, f.kind ≠ fileKind) ∧
    (v.findSection fileKind sectionKind ≠ .error (.halt .overflow) →
      v.findSection fileKind sectionKind = v.found fileKind sectionKind) := by
  by_cases hmem : ∃ f ∈ v.files.items, f.kind = fileKind
  · obtain ⟨f, hf, rfl⟩ := hmem
    rw [findSection_of_mem hf sectionKind]
    exact ⟨iff_of_false (v.found_ne_halt _ _ _) fun hboth => hboth.2 f hf rfl, fun _ => rfl⟩
  have hnone : ∀ f ∈ v.files.items, f.kind ≠ fileKind := fun f hf hkind => hmem ⟨f, hf, hkind⟩
  rw [findSection_of_not_mem hnone, found_of_not_mem hnone]
  by_cases hmeets : MeetsOverlong v.bytes v.filesStart
  · rw [toList_files_of_meets hmeets]
    exact ⟨iff_of_true rfl ⟨hmeets, hnone⟩, fun hne => absurd rfl hne⟩
  · rw [toList_files_of_not_meets hmeets]
    exact ⟨iff_of_false nofun fun hboth => hmeets hboth.1, fun _ => rfl⟩

/-- Of all the sums for files and sections only the end of a large file may not fit a word. A walk that
comes to a header with such an end stops the machine, and so does a search, unless a file of its type is in
front of it. Without such a header walks and searches end, and at any other header that does not fit there
are no more files. -/
theorem files_stop {bytes : Bytes} {v : Volume} (h : Volume.read bytes = .ok v)
    (hbytes : bytes.Addressable) :
    (v.filesChecked = v.files ∧ (∀ f ∈ v.files.items, f.sectionsChecked.toList = .ok f.sections) ∧
      ∀ fileKind sectionKind, v.findSectionChecked fileKind sectionKind = v.findSection fileKind sectionKind) ∧
    (MeetsOverlong v.bytes v.filesStart → v.files.toList = .error .overflow) ∧
    (¬MeetsOverlong v.bytes v.filesStart → v.files.toList = .ok v.files.items) ∧
    (∀ fileKind sectionKind, (v.findSection fileKind sectionKind = .error (.halt .overflow) ↔
        MeetsOverlong v.bytes v.filesStart ∧ ∀ f ∈ v.files.items, f.kind ≠ fileKind) ∧
      (v.findSection fileKind sectionKind ≠ .error (.halt .overflow) →
        v.findSection fileKind sectionKind = v.found fileKind sectionKind)) ∧
    ∀ place, (¬Overlong v.bytes place →
        (∀ e, headerAt? v.bytes place = some e → v.bytes.length < place + e.size) →
        FirmwareFile.walk v.bytes place = .done) ∧
      ∀ e, headerAt? v.bytes place = some e → UInt64.size ≤ place + e.size → e.attributes &&& largeFile ≠ 0 := by
  have hcovered : v.bytes.Addressable := by
    obtain ⟨-, hslice⟩ := read_eq_ok.mp h
    have hlength := Bytes.length_of_slice? hslice
    have hfits := Bytes.le_length_of_slice? hslice
    rw [Bytes.Addressable] at *
    omega
  refine ⟨⟨filesChecked_eq hcovered, fun f hf => ?_, findSectionChecked_eq hcovered⟩, toList_files_of_meets,
    toList_files_of_not_meets, v.findSection_eq_halt, fun place => ⟨FirmwareFile.walk_of_misfit, fun e => ?_⟩⟩
  · exact FirmwareFile.toList_sectionsChecked (addressable_of_mem_files hcovered hf)
  · exact FirmwareFile.large_of_overlong hcovered

theorem readAt_overlongVolume :
    FirmwareFile.readAt overlongVolume 0x38 = .ok (some (⟨Guid.zero, FirmwareFile.raw, 0, []⟩, 0x50)) := by
  decide +kernel

theorem overlong_overlongVolume : Overlong overlongVolume 0x50 := ⟨_, rfl, by decide⟩

theorem items_overlongVolume : (FirmwareFile.walk overlongVolume 0x38).items =
    [⟨Guid.zero, FirmwareFile.raw, 0, []⟩] := by
  have hsecond := FirmwareFile.walk_of_error (FirmwareFile.readAt_of_overlong overlong_overlongVolume)
  rw [FirmwareFile.walk_of_some readAt_overlongVolume, if_neg (by decide),
    show roundUp 8 0x50 = 0x50 from rfl, hsecond]
  rfl

theorem meets_overlongVolume : MeetsOverlong overlongVolume 0x38 :=
  (FirmwareFile.meetsOverlong_of_some readAt_overlongVolume).mpr ⟨0x50, .refl, overlong_overlongVolume⟩

theorem files_stop_overlong :
    Volume.read overlongVolume = .ok ⟨plainHeader 0x70, overlongVolume⟩ ∧ overlongVolume.Addressable ∧
    (Volume.mk (plainHeader 0x70) overlongVolume).files.toList = .error .overflow ∧
    ∀ fileKind sectionKind, fileKind ≠ FirmwareFile.raw ↔
      (Volume.mk (plainHeader 0x70) overlongVolume).findSection fileKind sectionKind =
        .error (.halt .overflow) := by
  have hread : Volume.read overlongVolume = .ok ⟨plainHeader 0x70, overlongVolume⟩ := rfl
  have hbytes : overlongVolume.Addressable := by decide
  obtain ⟨-, hhalts, -, hfind, -⟩ := files_stop hread hbytes
  refine ⟨hread, hbytes, hhalts meets_overlongVolume, fun fileKind sectionKind => ?_⟩
  rw [(hfind fileKind sectionKind).1]
  change _ ↔ _ ∧ ∀ f ∈ (FirmwareFile.walk overlongVolume 0x38).items, _
  rw [items_overlongVolume, List.forall_mem_singleton]
  exact ⟨fun hne => ⟨meets_overlongVolume, hne.symm⟩, fun hboth => hboth.2.symm⟩

/-- The size does not fit the volume, but the walk does not end there. -/
theorem overlong_size_halts :
    Volume.read overlongVolume = .ok ⟨plainHeader 0x70, overlongVolume⟩ ∧
    (Volume.mk (plainHeader 0x70) overlongVolume).files.toList = .error .overflow ∧
    (Volume.mk (plainHeader 0x70) overlongVolume).findSection FirmwareFile.mmCoreStandalone Section.pe32 =
      .error (.halt .overflow) := by
  refine ⟨rfl, toList_files_of_meets meets_overlongVolume, ?_⟩
  refine (findSection_eq_halt _ _ _).1.mpr ⟨meets_overlongVolume, ?_⟩
  change ∀ f ∈ (FirmwareFile.walk overlongVolume 0x38).items, _
  rw [items_overlongVolume]
  decide

end Volume
end PlatformInit
