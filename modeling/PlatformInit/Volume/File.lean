import PlatformInit.Volume.Header
import PlatformInit.Walk
import PlatformInit.Word.Checked

/-!
Files of a firmware volume and sections of a file.

Files begin at multiples of eight bytes and sections at multiples of four. A walk ends at free space
or at the first header that does not fit its container.
-/
set_option autoImplicit false
namespace PlatformInit

def roundUp (unit n : Nat) : Nat := (n + (unit - 1)) / unit * unit

theorem le_roundUp {unit n : Nat} (h : 0 < unit) : n ≤ roundUp unit n := by
  have := Nat.div_add_mod (n + (unit - 1)) unit
  have := Nat.mod_lt (n + (unit - 1)) h
  simp only [roundUp, Nat.mul_comm _ unit]
  omega

structure Section where
  kind : UInt8
  body : Bytes
  deriving DecidableEq

namespace Section

def compression : UInt8 := 0x01
def guidDefined : UInt8 := 0x02
def pe32 : UInt8 := 0x10
def positionIndependent : UInt8 := 0x11
def terseImage : UInt8 := 0x12
def dxeDependency : UInt8 := 0x13
def version : UInt8 := 0x14
def userInterface : UInt8 := 0x15
def volumeImage : UInt8 := 0x17
def raw : UInt8 := 0x19
def mmDependency : UInt8 := 0x1C

/-- Length of the header and declared size of the section at `offset`. A size of `0xFFFFFF` stands
for a longer header that holds the size in a word of its own. -/
def extent? (bytes : Bytes) (offset : Nat) : Option (Nat × Nat) :=
  match bytes.word? 3 offset with
  | none => none
  | some 0xFFFFFF => (bytes.word? 4 (offset + 4)).map (8, ·)
  | some size => some (4, size)

def readAt? (bytes : Bytes) (offset : Nat) : Option (Section × Nat) := do
  let kind ← bytes.u8? (offset + 3)
  let (header, size) ← extent? bytes offset
  if size < header then none
  else
    let body ← bytes.slice? (offset + header) (size - header)
    return (⟨kind, body⟩, offset + size)

theorem readAt?_stop {bytes : Bytes} {offset : Nat} {s : Section} {stop : Nat}
    (h : readAt? bytes offset = some (s, stop)) : offset < stop ∧ stop ≤ bytes.length := by
  simp only [readAt?, Option.bind_eq_bind, Option.bind_eq_some_iff] at h
  obtain ⟨kind, -, ⟨header, size⟩, he, h⟩ := h
  have hpos : 0 < header := by
    unfold extent? at he
    split at he
    · cases he
    · simp only [Option.map_eq_some_iff, Prod.mk.injEq] at he
      omega
    · simp only [Option.some.injEq, Prod.mk.injEq] at he
      omega
  dsimp only at h
  split at h
  · cases h
  · simp only [Option.bind_eq_some_iff, Option.pure_def, Option.some.injEq, Prod.mk.injEq] at h
    obtain ⟨body, hb, -, rfl⟩ := h
    have := Bytes.le_length_of_slice? hb
    omega

def walk (bytes : Bytes) (offset : Nat) : List Section :=
  match _found : readAt? bytes offset with
  | none => []
  | some (s, stop) => s :: walk bytes (roundUp 4 stop)
termination_by bytes.length + 1 - offset
decreasing_by
  have := readAt?_stop _found
  have := le_roundUp (n := stop) (show 0 < 4 by decide)
  omega

end Section

structure FirmwareFile where
  name : Guid
  kind : UInt8
  attributes : UInt8
  body : Bytes
  deriving DecidableEq

namespace FirmwareFile

def raw : UInt8 := 0x01
def freeform : UInt8 := 0x02
def securityCore : UInt8 := 0x03
def peiCore : UInt8 := 0x04
def dxeCore : UInt8 := 0x05
def peim : UInt8 := 0x06
def driver : UInt8 := 0x07
def application : UInt8 := 0x09
def mm : UInt8 := 0x0A
def volumeImage : UInt8 := 0x0B
def mmCore : UInt8 := 0x0D
def mmStandalone : UInt8 := 0x0E
def mmCoreStandalone : UInt8 := 0x0F
def pad : UInt8 := 0xF0

/-- Attribute of a file whose size takes eight bytes of its own behind the usual header. -/
def largeFile : UInt8 := 0x01

def headerSize : Nat := 0x18
def largeHeaderSize : Nat := 0x20

def sections (f : FirmwareFile) : List Section := Section.walk f.body 0

structure Entry where
  name : Guid
  kind : UInt8
  attributes : UInt8
  headerLength : Nat
  size : Nat

def extent? (bytes : Bytes) (offset : Nat) (attributes : UInt8) : Option (Nat × Nat) :=
  if attributes &&& largeFile ≠ 0 then (bytes.word? 8 (offset + headerSize)).map (largeHeaderSize, ·)
  else (bytes.word? 3 (offset + 0x14)).map (headerSize, ·)

/-- The header at `offset`, unless space is free there or the size is less than the header. -/
def headerAt? (bytes : Bytes) (offset : Nat) : Option Entry := do
  let header ← bytes.slice? offset headerSize
  if header.all (· == 0xFF) then none
  else
    let attributes ← header.u8? 0x13
    let (headerLength, size) ← extent? bytes offset attributes
    if size < headerLength then none
    else return ⟨← Guid.read? header 0, ← header.u8? 0x12, attributes, headerLength, size⟩

/-- The file at `offset` and where it ends; `none` at free space and at a file that does not fit. -/
def readAt (bytes : Bytes) (offset : Nat) : Except Halt (Option (FirmwareFile × Nat)) :=
  match headerAt? bytes offset with
  | none => .ok none
  | some e =>
    match fit64 (offset + e.size) with
    | .error h => .error h
    | .ok stop =>
      .ok ((bytes.slice? (offset + e.headerLength) (e.size - e.headerLength)).map
        (⟨e.name, e.kind, e.attributes, ·⟩, stop))

theorem headerLength_of_headerAt? {bytes : Bytes} {offset : Nat} {e : Entry}
    (h : headerAt? bytes offset = some e) : 0 < e.headerLength ∧ e.headerLength ≤ e.size := by
  simp only [headerAt?, Option.bind_eq_bind, Option.bind_eq_some_iff] at h
  obtain ⟨header, -, h⟩ := h
  split at h
  · cases h
  · simp only [Option.bind_eq_some_iff] at h
    obtain ⟨attributes, -, ⟨length, size⟩, he, h⟩ := h
    have hpos : 0 < length := by
      unfold extent? at he
      split at he
      all_goals
        simp only [Option.map_eq_some_iff, Prod.mk.injEq, largeHeaderSize, headerSize] at he
        omega
    dsimp only at h
    split at h
    · cases h
    · simp only [Option.bind_eq_some_iff, Option.pure_def, Option.some.injEq] at h
      obtain ⟨-, -, -, -, rfl⟩ := h
      exact ⟨hpos, Nat.le_of_not_lt ‹_›⟩

theorem readAt_stop {bytes : Bytes} {offset : Nat} {f : FirmwareFile} {stop : Nat}
    (h : readAt bytes offset = .ok (some (f, stop))) : offset < stop ∧ stop ≤ bytes.length := by
  unfold readAt at h
  split at h
  · cases h
  · rename_i e he
    have hl := headerLength_of_headerAt? he
    split at h
    · cases h
    · rename_i n hn
      simp only [Except.ok.injEq, Option.map_eq_some_iff, Prod.mk.injEq] at h
      obtain ⟨body, hb, -, rfl⟩ := h
      have := Bytes.le_length_of_slice? hb
      have := (fit64_eq_ok_iff.mp hn).1
      omega

/-- The files from `offset` on, pads left out. -/
def walk (bytes : Bytes) (offset : Nat) : Walk FirmwareFile :=
  match _found : readAt bytes offset with
  | .error h => .halted h
  | .ok none => .done
  | .ok (some (f, stop)) =>
    if f.kind = pad then walk bytes (roundUp 8 stop) else .next f (walk bytes (roundUp 8 stop))
termination_by bytes.length + 1 - offset
decreasing_by
  all_goals
    have := readAt_stop _found
    have := le_roundUp (n := stop) (show 0 < 8 by decide)
    omega

end FirmwareFile

namespace Volume

/-- Where the first file begins: behind the header and the extended header, if there is one. -/
def filesStart (v : Volume) : Nat :=
  let header := v.header.headerLength.toNat
  let extension := v.header.extHeaderOffset.toNat
  if extension = 0 then roundUp 8 header
  else roundUp 8 (max header (extension + (v.bytes.word? 4 (extension + 0x10)).getD 0))

def files (v : Volume) : Walk FirmwareFile := FirmwareFile.walk v.bytes v.filesStart

/-- The body of the first section of type `sectionKind` in the first file of type `fileKind`. -/
def findSection (v : Volume) (fileKind sectionKind : UInt8) : Fallible VolumeError Bytes := do
  match ← v.files.find? (·.kind == fileKind) with
  | none => .fail .notFound
  | some file =>
    match file.sections.find? (·.kind == sectionKind) with
    | none => .fail .notFound
    | some s => return s.body

end Volume
end PlatformInit
