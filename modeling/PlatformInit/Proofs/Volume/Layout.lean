import PlatformInit.Proofs.Volume.Entries
import PlatformInit.Proofs.Volume.Header
import PlatformInit.Proofs.Walk
import PlatformInit.Proofs.Word.Multiples

/-!
Images of volumes, laid out by rule, are read back whole.

`Section.Written` and `FirmwareFile.Written` are the forms in which one entry can stand in the bytes, and
`Section.Run` and `FirmwareFile.Run` are entries at aligned places with anything in between. What a walk
yields is determined by the run that it goes along.
-/
set_option autoImplicit false
namespace PlatformInit

variable {bytes part : Bytes} {offset : Nat}

namespace Section

/-- The bytes of a section: a size of three bytes, or the largest of these and one of four bytes. -/
inductive Written (s : Section) : Bytes → Prop
  | short (hsize : 4 + s.body.length < 0xFFFFFF) :
      s.Written (leBytes 3 (4 + s.body.length) ++ [s.kind] ++ s.body)
  | long (hsize : 8 + s.body.length < UInt32.size) :
      s.Written (leBytes 3 0xFFFFFF ++ [s.kind] ++ leBytes 4 (8 + s.body.length) ++ s.body)

/-- The sections stand in the bytes from `offset` on, each at the next multiple of four, and behind them
there is no room for a header. -/
inductive Run (bytes : Bytes) : Nat → List Section → Prop
  | done {offset : Nat} (short : bytes.length < offset + 4) : Run bytes offset []
  | next {offset behind : Nat} {s : Section} {part : Bytes} {rest : List Section} (written : s.Written part)
      (slice : bytes.slice? offset part.length = some part)
      (aligned : NextMultiple 4 (offset + part.length) behind) (hrest : Run bytes behind rest) :
      Run bytes offset (s :: rest)

theorem extent?_of_short {size : Nat} (h : bytes.word? 3 offset = some size) (hsize : size < 0xFFFFFF) :
    extent? bytes offset = some (4, size) := by
  unfold extent?
  rw [h]
  split
  · rename_i hnone
    cases hnone
  · rename_i hlong
    cases hlong
    omega
  · rename_i hsome
    cases hsome
    rfl

theorem extent?_of_long {size : Nat} (h : bytes.word? 3 offset = some 0xFFFFFF)
    (hsize : bytes.word? 4 (offset + 4) = some size) : extent? bytes offset = some (8, size) := by
  simp [extent?, h, hsize]

theorem readAt?_of_header {s : Section} {header : Bytes} (hkind : header[3]? = some s.kind)
    (hpart : bytes.slice? offset (header ++ s.body).length = some (header ++ s.body))
    (hextent : extent? bytes offset = some (header.length, header.length + s.body.length)) :
    readAt? bytes offset = some (s, offset + (header ++ s.body).length) := by
  have hlength : (header ++ s.body).length = header.length + s.body.length := List.length_append
  have hlt := (List.getElem?_eq_some_iff.mp hkind).1
  have hread : bytes.u8? (offset + 3) = some s.kind := by
    rw [Bytes.u8?_within hpart (by omega), Bytes.u8?, List.getElem?_append_left hlt, hkind]
  have hbody : bytes.slice? (offset + header.length) s.body.length = some s.body := by
    rw [Bytes.slice?_within hpart (Nat.le_of_eq hlength.symm), Bytes.slice?_behind]
  have hsize : ¬header.length + s.body.length < header.length := by omega
  simp only [readAt?, hread, hextent, Option.bind_eq_bind, Option.bind_some, if_neg hsize,
    Nat.add_sub_cancel_left, hbody, hlength]
  rfl

theorem readAt?_of_written {s : Section} (h : s.Written part)
    (hpart : bytes.slice? offset part.length = some part) :
    readAt? bytes offset = some (s, offset + part.length) := by
  cases h with
  | short hsize =>
    have hword : bytes.word? 3 (offset + 0) = some (4 + s.body.length) := by
      rw [Bytes.word?_within hpart (by simp), List.append_assoc, Bytes.word?_leBytes]
      omega
    exact readAt?_of_header rfl hpart (extent?_of_short hword hsize)
  | long hsize =>
    have hplace : 4 + 4 ≤ (leBytes 3 0xFFFFFF ++ [s.kind] ++ leBytes 4 (8 + s.body.length) ++ s.body).length := by
      simp only [List.length_append, length_leBytes, List.length_singleton]
      omega
    have hword : bytes.word? 3 (offset + 0) = some 0xFFFFFF := by
      rw [Bytes.word?_within hpart (by simp), List.append_assoc, List.append_assoc]
      exact Bytes.word?_leBytes _ (by decide)
    have hlong : bytes.word? 4 (offset + 4) = some (8 + s.body.length) := by
      rw [Bytes.word?_within hpart hplace, List.append_assoc, Bytes.word?_append_of_le _ _ (Nat.le_refl 4)]
      exact Bytes.word?_leBytes _ hsize
    exact readAt?_of_header rfl hpart (extent?_of_long hword hlong)

theorem readAt?_of_short (h : bytes.length < offset + 4) : readAt? bytes offset = none := by
  have hkind : bytes.u8? (offset + 3) = none := List.getElem?_eq_none (by omega)
  rw [readAt?, hkind]
  rfl

theorem walk_of_run {sections : List Section} (h : Run bytes offset sections) :
    walk bytes offset = sections := by
  induction h with
  | done short => exact walk_of_none (readAt?_of_short short)
  | next written slice aligned _ ih =>
    rw [walk_of_some (readAt?_of_written written slice), ← aligned.eq_roundUp (by decide), ih]

end Section

namespace FirmwareFile

def headerBytes (f : FirmwareFile) (checks : UInt16) (size : Bytes) (state : UInt8) : Bytes :=
  f.name.toBytes ++ le16 checks ++ [f.kind, f.attributes] ++ size ++ [state]

def smallHeader (f : FirmwareFile) (checks : UInt16) (state : UInt8) : Bytes :=
  f.headerBytes checks (leBytes 3 (headerSize + f.body.length)) state

def largeHeader (f : FirmwareFile) (checks : UInt16) (unread : Bytes) (state : UInt8) : Bytes :=
  f.headerBytes checks unread state ++ leBytes 8 (largeHeaderSize + f.body.length)

/-- The bytes of a file: a size of three bytes in the header, or one of eight bytes behind it. -/
inductive Written (f : FirmwareFile) : Bytes → Prop
  | small (checks : UInt16) (state : UInt8) (hattribute : f.attributes &&& largeFile = 0)
      (hsize : headerSize + f.body.length < 0x1000000) : f.Written (f.smallHeader checks state ++ f.body)
  | large (checks : UInt16) (unread : Bytes) (state : UInt8) (hunread : unread.length = 3)
      (hattribute : f.attributes &&& largeFile ≠ 0) (hsize : largeHeaderSize + f.body.length < UInt64.size) :
      f.Written (f.largeHeader checks unread state ++ f.body)

def freeSpace : Bytes := List.replicate headerSize 0xFF

/-- The files stand in the bytes from `offset` on, each at the next multiple of eight, and behind them
there is free space or no room for a header. -/
inductive Run (bytes : Bytes) : Nat → List FirmwareFile → Prop
  | full {offset : Nat} (short : bytes.length < offset + headerSize) : Run bytes offset []
  | free {offset : Nat} (unused : bytes.slice? offset headerSize = some freeSpace) : Run bytes offset []
  | next {offset behind : Nat} {f : FirmwareFile} {part : Bytes} {rest : List FirmwareFile}
      (written : f.Written part) (used : part.take headerSize ≠ freeSpace)
      (slice : bytes.slice? offset part.length = some part)
      (aligned : NextMultiple 8 (offset + part.length) behind) (hrest : Run bytes behind rest) :
      Run bytes offset (f :: rest)

section
variable (f : FirmwareFile) (checks : UInt16) (state : UInt8)

theorem length_headerBytes {size : Bytes} (h : size.length = 3) :
    (f.headerBytes checks size state).length = headerSize := by
  simp [headerBytes, h, headerSize]

theorem length_smallHeader : (f.smallHeader checks state).length = headerSize :=
  f.length_headerBytes checks state (length_leBytes 3 _)

theorem length_largeHeader {unread : Bytes} (h : unread.length = 3) :
    (f.largeHeader checks unread state).length = largeHeaderSize := by
  rw [largeHeader, List.length_append, f.length_headerBytes checks state h, length_leBytes, headerSize,
    largeHeaderSize]

theorem word?_headerBytes (size rest : Bytes) : (f.headerBytes checks size state ++ rest).word? 3 0x14 =
    (size ++ ([state] ++ rest)).word? 3 0 := by
  have hbefore : (f.name.toBytes ++ le16 checks ++ [f.kind, f.attributes]).length = 0x14 := by simp
  rw [headerBytes, List.append_assoc, List.append_assoc, Bytes.word?_append_of_le _ 3 (Nat.le_of_eq hbefore),
    hbefore, Nat.sub_self]

end

variable {f : FirmwareFile} {checks : UInt16} {state : UInt8}

theorem extent?_of_small (hattribute : f.attributes &&& largeFile = 0)
    (hsize : headerSize + f.body.length < 0x1000000)
    (hpart : bytes.slice? offset (f.smallHeader checks state ++ f.body).length =
      some (f.smallHeader checks state ++ f.body)) :
    extent? bytes offset f.attributes = some (headerSize, headerSize + f.body.length) := by
  have hplace : 0x14 + 3 ≤ (f.smallHeader checks state ++ f.body).length := by
    rw [List.length_append, length_smallHeader, headerSize]
    omega
  rw [extent?, if_neg (not_not.mpr hattribute), Bytes.word?_within hpart hplace, smallHeader, word?_headerBytes,
    Bytes.word?_leBytes _ hsize, Option.map_some]

theorem extent?_of_large {unread : Bytes} (hunread : unread.length = 3)
    (hattribute : f.attributes &&& largeFile ≠ 0) (hsize : largeHeaderSize + f.body.length < UInt64.size)
    (hpart : bytes.slice? offset (f.largeHeader checks unread state ++ f.body).length =
      some (f.largeHeader checks unread state ++ f.body)) :
    extent? bytes offset f.attributes = some (largeHeaderSize, largeHeaderSize + f.body.length) := by
  have hheader := f.length_headerBytes checks state hunread
  have hplace : headerSize + 8 ≤ (f.largeHeader checks unread state ++ f.body).length := by
    rw [List.length_append, length_largeHeader f checks state hunread]
    exact Nat.le_add_right _ _
  rw [extent?, if_pos hattribute, Bytes.word?_within hpart hplace, largeHeader, List.append_assoc,
    Bytes.word?_append_of_le _ 8 (Nat.le_of_eq hheader), hheader, Nat.sub_self, Bytes.word?_leBytes _ hsize,
    Option.map_some]

theorem all_erased_iff {header : Bytes} (h : header.length = headerSize) :
    header.all (· == 0xFF) ↔ header = freeSpace := by
  rw [freeSpace, List.eq_replicate_iff, List.all_eq_true]
  simp only [beq_iff_eq, h, true_and]

theorem headerAt?_of_part {size rest : Bytes} {length total : Nat} (hsize : size.length = 3)
    (hpart : bytes.slice? offset (f.headerBytes checks size state ++ rest).length =
      some (f.headerBytes checks size state ++ rest))
    (hused : (f.headerBytes checks size state ++ rest).take headerSize ≠ freeSpace)
    (hextent : extent? bytes offset f.attributes = some (length, total)) (hle : length ≤ total) :
    headerAt? bytes offset = some ⟨f.name, f.kind, f.attributes, length, total⟩ := by
  have hlength := f.length_headerBytes checks state hsize
  have hheader : bytes.slice? (offset + 0) headerSize = some (f.headerBytes checks size state) := by
    rw [Bytes.slice?_within hpart, ← hlength, Bytes.slice?_front]
    rw [List.length_append]
    omega
  have hwritten : ¬(f.headerBytes checks size state).all (· == 0xFF) := by
    rwa [all_erased_iff hlength, ← List.take_left' hlength]
  have hname : Guid.read? (f.headerBytes checks size state) 0 = some f.name := by
    simp only [headerBytes, List.append_assoc, Guid.read?_toBytes]
  have hkind : (f.headerBytes checks size state).u8? 0x12 = some f.kind := rfl
  have hattributes : (f.headerBytes checks size state).u8? 0x13 = some f.attributes := rfl
  rw [Nat.add_zero] at hheader
  simp only [headerAt?, hheader, if_neg hwritten, hattributes, hextent, if_neg (Nat.not_lt.mpr hle), hname, hkind,
    Option.bind_eq_bind, Option.bind_some, Option.pure_def]

theorem readAt_of_headerAt? {header : Bytes} (hfits : bytes.length < UInt64.size)
    (hpart : bytes.slice? offset (header ++ f.body).length = some (header ++ f.body))
    (hheader : headerAt? bytes offset =
      some ⟨f.name, f.kind, f.attributes, header.length, header.length + f.body.length⟩) :
    readAt bytes offset = .ok (some (f, offset + (header ++ f.body).length)) := by
  have hlength : (header ++ f.body).length = header.length + f.body.length := List.length_append
  have hbody : bytes.slice? (offset + header.length) f.body.length = some f.body := by
    rw [Bytes.slice?_within hpart (Nat.le_of_eq hlength.symm), Bytes.slice?_behind]
  have hstop := Bytes.le_length_of_slice? hpart
  have hsum : fit64 (offset + (header.length + f.body.length)) = .ok (offset + (header ++ f.body).length) :=
    fit64_eq_ok_iff.mpr ⟨by rw [hlength], by omega⟩
  simp only [readAt, hheader, hsum, Nat.add_sub_cancel_left, hbody, Option.map_some]

theorem readAt_of_written (h : f.Written part) (hused : part.take headerSize ≠ freeSpace)
    (hpart : bytes.slice? offset part.length = some part) (hfits : bytes.length < UInt64.size) :
    readAt bytes offset = .ok (some (f, offset + part.length)) := by
  cases h with
  | small checks state hattribute hsize =>
    have hextent := extent?_of_small hattribute hsize hpart
    refine readAt_of_headerAt? hfits hpart ?_
    rw [length_smallHeader]
    exact headerAt?_of_part (length_leBytes 3 _) hpart hused hextent (Nat.le_add_right _ _)
  | large checks unread state hunread hattribute hsize =>
    have hextent := extent?_of_large hunread hattribute hsize hpart
    refine readAt_of_headerAt? hfits hpart ?_
    rw [length_largeHeader f checks state hunread]
    rw [largeHeader, List.append_assoc] at hpart hused
    exact headerAt?_of_part hunread hpart hused hextent (Nat.le_add_right _ _)

theorem readAt_of_full (h : bytes.length < offset + headerSize) : readAt bytes offset = .ok none := by
  have hheader : bytes.slice? offset headerSize = none := by
    rw [Bytes.slice?_eq, if_neg (Nat.not_le.mpr h)]
  rw [readAt, headerAt?, hheader]
  rfl

theorem readAt_of_free (h : bytes.slice? offset headerSize = some freeSpace) : readAt bytes offset = .ok none := by
  rw [readAt, headerAt?, h]
  rfl

theorem walk_of_run {files : List FirmwareFile} (h : Run bytes offset files) (hfits : bytes.length < UInt64.size) :
    (walk bytes offset).toList = .ok (files.filter (·.kind ≠ pad)) := by
  induction h with
  | full short =>
    rw [walk_of_none (readAt_of_full short)]
    rfl
  | free unused =>
    rw [walk_of_none (readAt_of_free unused)]
    rfl
  | @next offset behind f part rest written used slice aligned _ ih =>
    rw [walk_of_some (readAt_of_written written used slice hfits), ← aligned.eq_roundUp (by decide)]
    split
    · rename_i hpad
      rw [ih, List.filter_cons_of_neg (by simp [hpad])]
    · rename_i hpad
      rw [Walk.toList, ih, List.filter_cons_of_pos (by simp [hpad])]
      rfl

end FirmwareFile

namespace Volume

/-- The image begins with a volume that has no extended header and holds these files, pads included. -/
structure LaidOut (image : Bytes) (h : VolumeHeader) (files : List FirmwareFile) : Prop where
  header : ∃ vector reserved rest, vector.length = 0x10 ∧ image = h.toBytes vector reserved ++ rest
  signature_eq : h.signature = VolumeHeader.magic
  size_le : VolumeHeader.size ≤ h.headerLength.toNat
  unextended : h.extHeaderOffset = 0
  length_le : h.length.toNat ≤ image.length
  run : ∃ start, NextMultiple 8 h.headerLength.toNat start ∧
    FirmwareFile.Run (image.take h.length.toNat) start files

theorem LaidOut.read_eq_ok {image : Bytes} {h : VolumeHeader} {files : List FirmwareFile}
    (hlaid : LaidOut image h files) : Volume.read image = .ok ⟨h, image.take h.length.toNat⟩ := by
  obtain ⟨vector, reserved, rest, hvector, himage⟩ := hlaid.header
  have hfields : VolumeHeader.fields? image = some h := by
    rw [himage, VolumeHeader.fields?_toBytes h hvector]
  have hgood : ¬(h.signature ≠ VolumeHeader.magic ∨ h.headerLength.toNat < VolumeHeader.size) :=
    not_or.mpr ⟨not_not.mpr hlaid.signature_eq, Nat.not_lt.mpr hlaid.size_le⟩
  refine Volume.read_eq_ok.mpr ⟨?_, ?_⟩
  · rw [VolumeHeader.read, hfields]
    exact if_neg hgood
  · rw [Bytes.slice?_eq, Nat.zero_add, if_pos hlaid.length_le, List.drop_zero]

theorem LaidOut.toList_files {image : Bytes} {h : VolumeHeader} {files : List FirmwareFile}
    (hlaid : LaidOut image h files) :
    (Volume.mk h (image.take h.length.toNat)).files.toList = .ok (files.filter (·.kind ≠ FirmwareFile.pad)) := by
  obtain ⟨start, hstart, hrun⟩ := hlaid.run
  have hfits : (image.take h.length.toNat).length < UInt64.size := by
    have := h.length.toNat_lt_size
    rw [List.length_take]
    omega
  have hfirst : (Volume.mk h (image.take h.length.toNat)).filesStart = start := by
    rw [hstart.eq_roundUp (by decide), filesStart]
    exact if_pos (congrArg UInt16.toNat hlaid.unextended)
  rw [Volume.files, hfirst]
  exact FirmwareFile.walk_of_run hrun hfits

abbrev Contents := List (FirmwareFile × List Section)

namespace Contents

def withoutPads (contents : Contents) : Contents := contents.filter (·.1.kind ≠ FirmwareFile.pad)

def first? (contents : Contents) (fileKind sectionKind : UInt8) : Option Section :=
  (contents.find? (·.1.kind == fileKind)).bind (·.2.find? (·.kind == sectionKind))

theorem first?_eq {contents : Contents} (h : ∀ e ∈ contents, e.1.sections = e.2) (fileKind sectionKind : UInt8) :
    ((contents.map (·.1)).find? (·.kind == fileKind)).bind (·.sections.find? (·.kind == sectionKind)) =
      contents.first? fileKind sectionKind := by
  rw [first?, List.find?_map, Function.comp_def]
  cases hfind : contents.find? (·.1.kind == fileKind) with
  | none => rfl
  | some e =>
    rw [Option.map_some, Option.bind_some, Option.bind_some, h e (List.mem_of_find?_eq_some hfind)]

end Contents

/-- A volume that is laid out by rule is read back whole: the files that are no pads in their order, each with
its sections in theirs, and a search answers the body of the first section that fits. -/
theorem files_laidOut {image : Bytes} {h : VolumeHeader} {contents : Contents}
    (hlaid : LaidOut image h (contents.map (·.1)))
    (hsections : ∀ e ∈ contents.withoutPads, Section.Run e.1.body 0 e.2) :
    ∃ v, Volume.read image = .ok v ∧ v.header = h ∧
      v.files.toList = .ok (contents.withoutPads.map (·.1)) ∧
      (∀ e ∈ contents.withoutPads, e.1.sections = e.2) ∧
      ∀ fileKind sectionKind, v.findSection fileKind sectionKind =
        match contents.withoutPads.first? fileKind sectionKind with
        | none => .fail .notFound
        | some s => .ok s.body := by
  have hfiles := hlaid.toList_files
  have hread : ∀ e ∈ contents.withoutPads, e.1.sections = e.2 := fun e he => Section.walk_of_run (hsections e he)
  rw [List.filter_map] at hfiles
  refine ⟨_, hlaid.read_eq_ok, rfl, hfiles, hread, fun fileKind sectionKind => ?_⟩
  rw [findSection_of_toList hfiles, ← Contents.first?_eq hread]
  rfl

def samplePad : FirmwareFile := ⟨Guid.zero, FirmwareFile.pad, 0, [1, 2, 3]⟩

def sampleCore : FirmwareFile := ⟨Guid.zero, FirmwareFile.mmCoreStandalone, 0,
  (leBytes 3 6 ++ [Section.raw] ++ [0xAA, 0xBB]) ++ [0, 0] ++
    (leBytes 3 0xFFFFFF ++ [Section.pe32] ++ leBytes 4 9 ++ [0x4D])⟩

def sampleLarge : FirmwareFile :=
  ⟨Guid.zero, FirmwareFile.mmCoreStandalone, FirmwareFile.largeFile, leBytes 3 4 ++ [Section.pe32] ++ []⟩

def sampleContents : Contents :=
  [(samplePad, []), (sampleCore, [⟨Section.raw, [0xAA, 0xBB]⟩, ⟨Section.pe32, [0x4D]⟩]),
    (sampleLarge, [⟨Section.pe32, []⟩])]

def sampleHeader : VolumeHeader := ⟨Guid.zero, 0xD0, VolumeHeader.magic, 0, 0x3C, 0, 0, 2⟩

def sampleImage : Bytes :=
  sampleHeader.toBytes (List.replicate 0x10 0) 0 ++ (List.replicate 8 0 ++
    (samplePad.smallHeader 0 0xF8 ++ samplePad.body) ++ List.replicate 5 0xFF ++
    (sampleCore.smallHeader 0 0xF8 ++ sampleCore.body) ++ List.replicate 7 0xFF ++
    (sampleLarge.largeHeader 0 [0, 0, 0] 0xF8 ++ sampleLarge.body) ++ List.replicate 4 0xFF ++
    FirmwareFile.freeSpace)

theorem sampleImage_laidOut : LaidOut sampleImage sampleHeader (sampleContents.map (·.1)) where
  header := ⟨List.replicate 0x10 0, 0, _, rfl, rfl⟩
  signature_eq := rfl
  size_le := by decide
  unextended := rfl
  length_le := by decide +kernel
  run := by
    refine ⟨0x40, nextMultiple_roundUp (by decide) _, ?_⟩
    refine .next (.small 0 0xF8 rfl (by decide)) (by decide) (by decide +kernel)
      (nextMultiple_roundUp (by decide) _ : NextMultiple 8 0x5B 0x60) ?_
    refine .next (.small 0 0xF8 rfl (by decide)) (by decide) (by decide +kernel)
      (nextMultiple_roundUp (by decide) _ : NextMultiple 8 0x89 0x90) ?_
    refine .next (.large 0 [0, 0, 0] 0xF8 rfl (by decide) (by decide)) (by decide) (by decide +kernel)
      (nextMultiple_roundUp (by decide) _ : NextMultiple 8 0xB4 0xB8) ?_
    exact .free (by decide +kernel)

theorem sampleContents_run : ∀ e ∈ sampleContents.withoutPads, Section.Run e.1.body 0 e.2 := by
  have hcore : Section.Run sampleCore.body 0 [⟨Section.raw, [0xAA, 0xBB]⟩, ⟨Section.pe32, [0x4D]⟩] := by
    refine .next (.short (by decide)) (by decide) (nextMultiple_roundUp (by decide) _ : NextMultiple 4 6 8) ?_
    refine .next (.long (by decide)) (by decide) (nextMultiple_roundUp (by decide) _ : NextMultiple 4 17 20) ?_
    exact .done (by decide)
  have hlarge : Section.Run sampleLarge.body 0 [⟨Section.pe32, []⟩] := by
    refine .next (.short (by decide)) (by decide) (nextMultiple_roundUp (by decide) _ : NextMultiple 4 4 4) ?_
    exact .done (by decide)
  exact List.forall_mem_cons.mpr ⟨hcore, List.forall_mem_cons.mpr ⟨hlarge, List.forall_mem_nil _⟩⟩

theorem files_laidOut_sample : LaidOut sampleImage sampleHeader (sampleContents.map (·.1)) ∧
    (∀ e ∈ sampleContents.withoutPads, Section.Run e.1.body 0 e.2) ∧
    ∃ v, Volume.read sampleImage = .ok v ∧ v.files.toList = .ok [sampleCore, sampleLarge] ∧
      v.findSection FirmwareFile.mmCoreStandalone Section.pe32 = .ok [0x4D] ∧
      v.findSection FirmwareFile.pad Section.raw = .fail .notFound := by
  obtain ⟨v, hread, -, hfiles, -, hfind⟩ := files_laidOut sampleImage_laidOut sampleContents_run
  exact ⟨sampleImage_laidOut, sampleContents_run, v, hread, hfiles, hfind _ _, hfind _ _⟩

end Volume
end PlatformInit
