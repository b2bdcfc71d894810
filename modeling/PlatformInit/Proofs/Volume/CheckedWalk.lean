import PlatformInit.Proofs.Step
import PlatformInit.Proofs.Volume.Containment
import PlatformInit.Proofs.Word.Sums

/-!
The walks over the files of a volume and the sections of a file with every sum that the machine works out.

A `Cursor` reads entries at rising places. The ones here stop the machine at any sum that does not fit a
word. Over bytes that can lie in memory they come to the same as `FirmwareFile.walk` and `Section.walk`,
of whose sums only the end of a file is checked.
-/
set_option autoImplicit false
namespace PlatformInit

/-! ### Cursors -/

/-- What stands at a place: an entry and the place of the next one, `none` where there is no other entry. -/
structure Cursor (α : Type) where
  read : Nat → Except Halt (Option (α × Nat))
  limit : Nat
  forward : ∀ {offset next : Nat} {a : α}, read offset = .ok (some (a, next)) →
    offset < next ∧ offset < limit

namespace Cursor

variable {α : Type}

/-- The entries from `offset` on, as far as they are shown. -/
def walk (c : Cursor α) (shown : α → Bool) (offset : Nat) : Walk α :=
  match _found : c.read offset with
  | .error h => .halted h
  | .ok none => .done
  | .ok (some (a, next)) => if shown a then .next a (c.walk shown next) else c.walk shown next
termination_by c.limit - offset
decreasing_by
  all_goals
    have := c.forward _found
    omega

section
variable {c : Cursor α} {shown : α → Bool} {offset : Nat}

theorem walk_of_error {h : Halt} (hread : c.read offset = .error h) : c.walk shown offset = .halted h := by
  rw [walk]
  split
  all_goals
    rename_i hfound
    rw [hread] at hfound
    cases hfound
  rfl

theorem walk_of_none (hread : c.read offset = .ok none) : c.walk shown offset = .done := by
  rw [walk]
  split
  · rename_i hfound
    rw [hread] at hfound
    cases hfound
  · rfl
  · rename_i hfound
    rw [hread] at hfound
    cases hfound

theorem walk_of_some {a : α} {next : Nat} (hread : c.read offset = .ok (some (a, next))) :
    c.walk shown offset = if shown a then .next a (c.walk shown next) else c.walk shown next := by
  rw [walk]
  split
  all_goals
    rename_i hfound
    rw [hread] at hfound
    cases hfound
  rfl

end
end Cursor

variable {bytes : Bytes} {offset : Nat}

/-! ### Sections -/

namespace Section

def readChecked (bytes : Bytes) (offset : Nat) : Except Halt (Option (Section × Nat)) := do
  let _ ← fit64 (offset + 4)
  match bytes.u8? (offset + 3), extent? bytes offset with
  | some kind, some (header, size) =>
    if size < header then return none
    else
      let start ← fit64 (offset + header)
      let stop ← fit64 (offset + size)
      match bytes.slice? start (size - header) with
      | none => return none
      | some body =>
        let next ← roundUpChecked 4 stop
        return some (⟨kind, body⟩, next)
  | _, _ => return none

theorem readAt?_of_readChecked {s : Section} {next : Nat}
    (h : readChecked bytes offset = .ok (some (s, next))) :
    ∃ stop, readAt? bytes offset = some (s, stop) ∧ next = roundUp 4 stop := by
  rw [readChecked, Fallible.bind_eq_ok] at h
  obtain ⟨-, -, h⟩ := h
  split at h
  · rename_i kind header size hkind hextent
    split at h
    · cases h
    rename_i hsize
    obtain ⟨start, hstart, h⟩ := Fallible.bind_eq_ok.mp h
    obtain ⟨stop, hstop, h⟩ := Fallible.bind_eq_ok.mp h
    obtain ⟨rfl, -⟩ := fit64_eq_ok_iff.mp hstart
    obtain ⟨rfl, -⟩ := fit64_eq_ok_iff.mp hstop
    split at h
    · cases h
    rename_i body hbody
    obtain ⟨next', hnext, h⟩ := Fallible.bind_eq_ok.mp h
    cases h
    refine ⟨offset + size, ?_, eq_of_roundUpChecked hnext⟩
    simp only [readAt?, hkind, hextent, hsize, hbody, Option.bind_eq_bind, Option.bind_some, if_false,
      Option.pure_def]
  · cases h

theorem extent?_le {header size : Nat} (h : extent? bytes offset = some (header, size)) :
    header ≤ 8 ∧ size < UInt32.size := by
  unfold extent? at h
  split at h
  · cases h
  · obtain ⟨n, hn, heq⟩ := Option.map_eq_some_iff.mp h
    cases heq
    exact ⟨Nat.le_refl 8, Bytes.word?_lt hn⟩
  · rename_i size hsize
    cases h
    exact ⟨by decide, Nat.lt_trans (Bytes.word?_lt hsize) (by decide)⟩

theorem readChecked_eq (hbytes : bytes.Addressable) (hoffset : offset ≤ bytes.length + 3) :
    readChecked bytes offset = .ok ((readAt? bytes offset).map fun p => (p.1, roundUp 4 p.2)) := by
  have h32 : UInt32.size = 0x100000000 := rfl
  have h64 : UInt64.size = 0x10000000000000000 := rfl
  rw [Bytes.Addressable] at hbytes
  rw [readChecked, fit64_of_lt (by omega), readAt?]
  cases hkind : bytes.u8? (offset + 3) with
  | none => rfl
  | some kind =>
    cases hextent : extent? bytes offset with
    | none => rfl
    | some extent =>
      obtain ⟨header, size⟩ := extent
      have hle := extent?_le hextent
      dsimp only [bind, Except.bind, Option.bind]
      split
      · rfl
      rw [fit64_of_lt (by omega), fit64_of_lt (by omega)]
      dsimp only
      cases hbody : bytes.slice? (offset + header) (size - header) with
      | none => rfl
      | some body =>
        have hstop := Bytes.le_length_of_slice? hbody
        dsimp only
        rw [roundUpChecked_eq (by omega)]
        rfl

def cursor (bytes : Bytes) : Cursor Section where
  read := readChecked bytes
  limit := bytes.length
  forward hread := by
    obtain ⟨stop, hfound, rfl⟩ := readAt?_of_readChecked hread
    have hstop := readAt?_stop hfound
    have hround := le_roundUp (n := stop) (show 0 < 4 by decide)
    omega

theorem cursor_walk (hbytes : bytes.Addressable) (hoffset : offset ≤ bytes.length + 3) :
    ((cursor bytes).walk (fun _ => true) offset).toList = .ok (walk bytes offset) := by
  fun_induction walk bytes offset with
  | case1 offset hfound =>
    have hread : (cursor bytes).read offset = .ok none := by
      change readChecked bytes offset = _
      rw [readChecked_eq hbytes hoffset, hfound, Option.map_none]
    rw [Cursor.walk_of_none hread, Walk.toList]
  | case2 offset s stop hfound ih =>
    have hread : (cursor bytes).read offset = .ok (some (s, roundUp 4 stop)) := by
      change readChecked bytes offset = _
      rw [readChecked_eq hbytes hoffset, hfound, Option.map_some]
    have hstop := readAt?_stop hfound
    have hnext := roundUp_le_add 4 stop
    rw [Cursor.walk_of_some hread, if_pos rfl, Walk.toList, ih (by omega)]
    rfl

end Section

/-! ### Files -/

namespace FirmwareFile

def readChecked (bytes : Bytes) (offset : Nat) : Except Halt (Option (FirmwareFile × Nat)) := do
  let _ ← fit64 (offset + headerSize)
  match headerAt? bytes offset with
  | none => return none
  | some e =>
    let start ← fit64 (offset + e.headerLength)
    let stop ← fit64 (offset + e.size)
    match bytes.slice? start (e.size - e.headerLength) with
    | none => return none
    | some body =>
      let next ← roundUpChecked 8 stop
      return some (⟨e.name, e.kind, e.attributes, body⟩, next)

theorem readAt_of_readChecked {f : FirmwareFile} {next : Nat}
    (h : readChecked bytes offset = .ok (some (f, next))) :
    ∃ stop, readAt bytes offset = .ok (some (f, stop)) ∧ next = roundUp 8 stop := by
  rw [readChecked, Fallible.bind_eq_ok] at h
  obtain ⟨-, -, h⟩ := h
  split at h
  · cases h
  rename_i e he
  obtain ⟨start, hstart, h⟩ := Fallible.bind_eq_ok.mp h
  obtain ⟨stop, hstop, h⟩ := Fallible.bind_eq_ok.mp h
  obtain ⟨rfl, -⟩ := fit64_eq_ok_iff.mp hstart
  split at h
  · cases h
  rename_i body hbody
  obtain ⟨next', hnext, h⟩ := Fallible.bind_eq_ok.mp h
  cases h
  refine ⟨stop, ?_, eq_of_roundUpChecked hnext⟩
  simp only [readAt, he, hstop, hbody, Option.map_some]

theorem extent?_le {attributes : UInt8} {header size : Nat}
    (h : extent? bytes offset attributes = some (header, size)) :
    header ≤ largeHeaderSize ∧ (attributes &&& largeFile = 0 → size < 0x1000000) := by
  unfold extent? at h
  split at h
  · rename_i hlarge
    obtain ⟨n, -, heq⟩ := Option.map_eq_some_iff.mp h
    cases heq
    exact ⟨Nat.le_refl _, fun hsmall => absurd hsmall hlarge⟩
  · obtain ⟨n, hn, heq⟩ := Option.map_eq_some_iff.mp h
    cases heq
    exact ⟨by decide, fun _ => Bytes.word?_lt hn⟩

/-- Of the sums for a file only its end may not fit a word. -/
theorem readChecked_eq (hbytes : bytes.Addressable) (hoffset : offset + headerSize < UInt64.size) :
    readChecked bytes offset = (readAt bytes offset).map (·.map fun p => (p.1, roundUp 8 p.2)) := by
  have h64 : UInt64.size = 0x10000000000000000 := rfl
  rw [Bytes.Addressable] at hbytes
  rw [readChecked, fit64_of_lt hoffset, readAt]
  cases he : headerAt? bytes offset with
  | none => rfl
  | some e =>
    obtain ⟨hwithin, hextent, hsize⟩ := headerAt?_inv he
    obtain ⟨hheader, -⟩ := extent?_le hextent
    rw [headerSize] at hwithin
    rw [largeHeaderSize] at hheader
    dsimp only [bind, Except.bind]
    rw [fit64_of_lt (by omega)]
    dsimp only
    cases hsum : fit64 (offset + e.size) with
    | error h => rfl
    | ok stop =>
      obtain ⟨rfl, -⟩ := fit64_eq_ok_iff.mp hsum
      dsimp only
      cases hbody : bytes.slice? (offset + e.headerLength) (e.size - e.headerLength) with
      | none => rfl
      | some body =>
        have hstop := Bytes.le_length_of_slice? hbody
        dsimp only
        rw [roundUpChecked_eq (by omega)]
        rfl

def cursor (bytes : Bytes) : Cursor FirmwareFile where
  read := readChecked bytes
  limit := bytes.length
  forward hread := by
    obtain ⟨stop, hfound, rfl⟩ := readAt_of_readChecked hread
    have hstop := readAt_stop hfound
    have hround := le_roundUp (n := stop) (show 0 < 8 by decide)
    omega

section
variable (hbytes : bytes.Addressable)
include hbytes

theorem cursor_read (hoffset : offset + headerSize < UInt64.size) : (cursor bytes).read offset =
    (readAt bytes offset).map (·.map fun p => (p.1, roundUp 8 p.2)) :=
  readChecked_eq hbytes hoffset

theorem headerSize_lt_of_readAt {f : FirmwareFile} {stop : Nat}
    (h : readAt bytes offset = .ok (some (f, stop))) : roundUp 8 stop + headerSize < UInt64.size := by
  have h64 : UInt64.size = 0x10000000000000000 := rfl
  have hstop := readAt_stop h
  have hnext := roundUp_le_add 8 stop
  rw [Bytes.Addressable] at hbytes
  rw [headerSize]
  omega

theorem cursor_walk (hoffset : offset + headerSize < UInt64.size) :
    (cursor bytes).walk (·.kind ≠ pad) offset = walk bytes offset := by
  fun_induction walk bytes offset with
  | case1 offset h hfound =>
    refine Cursor.walk_of_error ?_
    rw [cursor_read hbytes hoffset, hfound]
    rfl
  | case2 offset hfound =>
    refine Cursor.walk_of_none ?_
    rw [cursor_read hbytes hoffset, hfound]
    rfl
  | case3 offset f stop hfound hkind ih =>
    have hread : (cursor bytes).read offset = .ok (some (f, roundUp 8 stop)) := by
      rw [cursor_read hbytes hoffset, hfound]
      rfl
    rw [Cursor.walk_of_some hread, if_neg (by simp [hkind]), ih (headerSize_lt_of_readAt hbytes hfound)]
  | case4 offset f stop hfound hkind ih =>
    have hread : (cursor bytes).read offset = .ok (some (f, roundUp 8 stop)) := by
      rw [cursor_read hbytes hoffset, hfound]
      rfl
    rw [Cursor.walk_of_some hread, if_pos (by simp [hkind]), ih (headerSize_lt_of_readAt hbytes hfound)]

end

def sectionsChecked (f : FirmwareFile) : Walk Section := (Section.cursor f.body).walk (fun _ => true) 0

theorem toList_sectionsChecked {f : FirmwareFile} (h : f.body.Addressable) :
    f.sectionsChecked.toList = .ok f.sections :=
  Section.cursor_walk h (Nat.zero_le _)

end FirmwareFile

/-! ### Volumes -/

namespace Volume

def filesStartChecked (v : Volume) : Except Halt Nat :=
  let header := v.header.headerLength.toNat
  let extension := v.header.extHeaderOffset.toNat
  if extension = 0 then roundUpChecked 8 header
  else do
    let place ← fit64 (extension + 0x10)
    let stop ← fit64 (extension + (v.bytes.word? 4 place).getD 0)
    roundUpChecked 8 (max header stop)

def filesChecked (v : Volume) : Walk FirmwareFile :=
  match v.filesStartChecked with
  | .error h => .halted h
  | .ok offset => (FirmwareFile.cursor v.bytes).walk (·.kind ≠ FirmwareFile.pad) offset

def findSectionChecked (v : Volume) (fileKind sectionKind : UInt8) : Fallible VolumeError Bytes := do
  match ← v.filesChecked.find? (·.kind == fileKind) with
  | none => .fail .notFound
  | some file =>
    match ← file.sectionsChecked.find? (·.kind == sectionKind) with
    | none => .fail .notFound
    | some s => return s.body

theorem extensionSize_lt (v : Volume) (place : Nat) : (v.bytes.word? 4 place).getD 0 < UInt32.size := by
  cases hword : v.bytes.word? 4 place with
  | none => decide
  | some size => exact Bytes.word?_lt hword

theorem filesStartChecked_eq (v : Volume) :
    v.filesStartChecked = .ok v.filesStart ∧ v.filesStart + FirmwareFile.headerSize < UInt64.size := by
  have h32 : UInt32.size = 0x100000000 := rfl
  have h64 : UInt64.size = 0x10000000000000000 := rfl
  have hheader : v.header.headerLength.toNat < 0x10000 := v.header.headerLength.toNat_lt
  have hextension : v.header.extHeaderOffset.toNat < 0x10000 := v.header.extHeaderOffset.toNat_lt
  have hsize := v.extensionSize_lt (v.header.extHeaderOffset.toNat + 0x10)
  rw [filesStartChecked, filesStart, FirmwareFile.headerSize]
  split
  · have hround := roundUp_le_add 8 v.header.headerLength.toNat
    exact ⟨roundUpChecked_eq (by omega), by omega⟩
  · rw [fit64_of_lt (by omega)]
    dsimp only [bind, Except.bind]
    rw [fit64_of_lt (by omega)]
    have hround := roundUp_le_add 8 (max v.header.headerLength.toNat (v.header.extHeaderOffset.toNat +
      (v.bytes.word? 4 (v.header.extHeaderOffset.toNat + 0x10)).getD 0))
    exact ⟨roundUpChecked_eq (by omega), by omega⟩

theorem filesChecked_eq {v : Volume} (hbytes : v.bytes.Addressable) : v.filesChecked = v.files := by
  obtain ⟨hstart, hoffset⟩ := v.filesStartChecked_eq
  rw [filesChecked, hstart]
  exact FirmwareFile.cursor_walk hbytes hoffset

theorem addressable_of_mem_files {v : Volume} (hbytes : v.bytes.Addressable) {f : FirmwareFile}
    (hf : f ∈ v.files.items) : f.body.Addressable :=
  Nat.lt_of_le_of_lt ((FirmwareFile.walk_strung _ _).length_le (List.mem_map_of_mem hf)) hbytes

theorem findSectionChecked_eq {v : Volume} (hbytes : v.bytes.Addressable) (fileKind sectionKind : UInt8) :
    v.findSectionChecked fileKind sectionKind = v.findSection fileKind sectionKind := by
  rw [findSectionChecked, findSection, filesChecked_eq hbytes, Walk.find?_eq]
  cases hfile : v.files.items.find? (·.kind == fileKind) with
  | none => cases v.files.toList <;> rfl
  | some file =>
    have hsections := FirmwareFile.toList_sectionsChecked
      (addressable_of_mem_files hbytes (List.mem_of_find?_eq_some hfile))
    have hfind := Walk.find?_of_toList hsections (·.kind == sectionKind)
    dsimp only [bind, Except.bind, liftM, monadLift, MonadLift.monadLift, Fallible.ofHalting]
    generalize file.sectionsChecked.find? (·.kind == sectionKind) = answer at hfind ⊢
    subst hfind
    rfl

end Volume
end PlatformInit
