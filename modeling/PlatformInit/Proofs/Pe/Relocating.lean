import PlatformInit.Proofs.Pe.Fixups

/-!
Moving a loaded image to another base.

`relocate_eq` splits a move in two: the new base is recorded, then the entries that the image lists are
applied one after the other. What a move does to the image and how it fails follow from what the
entries do.
-/
set_option autoImplicit false
namespace PlatformInit

namespace RelocationBlock

theorem forM_apply_eq (adjustment : UInt64) (blocks : List RelocationBlock) :
    blocks.forM (apply adjustment) = (Relocation.ofBlocks blocks).forM (Relocation.apply adjustment) := by
  induction blocks with
  | nil => rfl
  | cons b blocks ih =>
    have hrest : forM blocks (apply adjustment) =
        forM (Relocation.ofBlocks blocks) (Relocation.apply adjustment) := ih
    change forM (b :: blocks) (apply adjustment) =
      forM (b.entries.map (Relocation.mk b.page) ++ Relocation.ofBlocks blocks) (Relocation.apply adjustment)
    rw [List.forM_cons, hrest, List.forM_append, List.forM_map]
    rfl

end RelocationBlock

namespace PeImage

def baseField (p : PeImage) : Extent := ⟨p.imageBaseOffset, 8⟩

def rebased (p : PeImage) (base : UInt64) (image : Bytes) : Bytes :=
  image.overwrite p.imageBaseOffset (le64 base)

/-- The image with another base and with the words of all the entries adjusted. -/
def moved (p : PeImage) (base adjustment : UInt64) (rs : List Relocation) (image : Bytes) : Bytes :=
  (Relocation.fields rs).foldl (Bytes.adjusted adjustment) (p.rebased base image)

/-- The entries that the relocation directory of an image lists; without a directory there are none. -/
def listed (p : PeImage) (image : Bytes) : Except PeError (List Relocation) :=
  match p.relocations with
  | none => .ok []
  | some directory =>
    match image.slice? directory.address.toNat directory.size.toNat with
    | none => .error (.bufferTooShort directory.size.toNat .image)
    | some data => (RelocationBlock.readAll data).map Relocation.ofBlocks

/-- The listed entries, as far as they can be told. -/
def fixups (p : PeImage) (image : Bytes) : List Relocation :=
  match p.listed image with
  | .ok rs => rs
  | .error _ => []

variable {p : PeImage} {image image' : Bytes} {base destination : UInt64}

/-! ### The base -/

theorem baseField_within (hbase : image.u64? p.imageBaseOffset = some base) :
    p.baseField.Within image.length := (Bytes.u64?_eq_some.mp hbase).1

theorem length_rebased (destination : UInt64) (h : p.baseField.Within image.length) :
    (p.rebased destination image).length = image.length :=
  Bytes.length_overwrite (by rw [length_le64]; exact h)

theorem agree_rebased {e : Extent} (destination : UInt64) (h : p.baseField.Within image.length)
    (hapart : e.Apart p.baseField) : Bytes.Agree e (p.rebased destination image) image := by
  refine Bytes.agree_overwrite (by rw [length_le64]; exact h) ?_
  rw [length_le64]
  exact hapart

theorem base_rebased (h : p.baseField.Within image.length) :
    (p.rebased destination image).u64? p.imageBaseOffset = some destination :=
  Bytes.u64?_overwrite h destination

theorem rebased_base (hbase : image.u64? p.imageBaseOffset = some base) : p.rebased base image = image :=
  Bytes.overwrite_u64? hbase

/-! ### The run -/

theorem relocate_eq (destination : UInt64) (hbase : image.u64? p.imageBaseOffset = some base) :
    p.relocate destination image =
      if destination = base then .ok () (p.rebased destination image)
      else match p.listed (p.rebased destination image) with
        | .error e => .error (.error e) (p.rebased destination image)
        | .ok rs => rs.forM (Relocation.apply (destination - base)) (p.rebased destination image) := by
  rw [relocate, Step.bind_of_ok (Step.get_eq_ok.mpr ⟨rfl, rfl⟩), hbase]
  refine (Step.bind_of_ok (t := p.rebased destination image) rfl).trans ?_
  rw [listed]
  cases p.relocations with
  | none =>
    dsimp only
    split <;> rfl
  | some directory =>
    dsimp only
    by_cases hsame : destination = base
    · rw [if_pos hsame, if_pos hsame]
      rfl
    · rw [if_neg hsame, if_neg hsame]
      change (match (p.rebased destination image).slice? directory.address.toNat directory.size.toNat with
        | none => Step.fail (.bufferTooShort directory.size.toNat .image)
        | some data => _ : Step Bytes PeError Unit) _ = _
      cases (p.rebased destination image).slice? directory.address.toNat directory.size.toNat with
      | none => rfl
      | some data =>
        dsimp only
        cases RelocationBlock.readAll data with
        | error e => rfl
        | ok blocks =>
          refine (Step.bind_of_ok (a := blocks) rfl).trans ?_
          rw [RelocationBlock.forM_apply_eq]
          rfl

theorem relocate_eq_ok_iff : p.relocate destination image = .ok () image' ↔
    ∃ base, image.u64? p.imageBaseOffset = some base ∧
      (destination = base ∧ image' = image ∨
        destination ≠ base ∧ ∃ rs, p.listed (p.rebased destination image) = .ok rs ∧
          (∀ r ∈ rs, r.Applies image.length) ∧
          image' = p.moved destination (destination - base) rs image) := by
  cases hbase : image.u64? p.imageBaseOffset with
  | none =>
    rw [relocate, Step.bind_of_ok (Step.get_eq_ok.mpr ⟨rfl, rfl⟩), hbase]
    constructor
    · nofun
    · rintro ⟨base, hsome, -⟩
      cases hsome
  | some base =>
    have hlength := length_rebased destination (baseField_within hbase)
    rw [relocate_eq destination hbase]
    simp only [Option.some.injEq, exists_eq_left']
    by_cases hsame : destination = base
    · subst hsame
      rw [if_pos rfl, rebased_base hbase]
      simp [eq_comm]
    · rw [if_neg hsame]
      cases p.listed (p.rebased destination image) with
      | error e => simp [hsame]
      | ok rs =>
        dsimp only
        rw [Relocation.forM_eq_ok_iff, hlength]
        simp [hsame, eq_comm, moved]

/-! ### What a move does -/

theorem fixups_eq {rs : List Relocation} (h : p.listed image = .ok rs) : p.fixups image = rs := by
  rw [fixups, h]

section
variable {rs : List Relocation} {a : UInt64} (hfits : p.baseField.Within image.length)
  (happly : ∀ r ∈ rs, r.Applies image.length)
include hfits happly

theorem fields_within_rebased (base : UInt64) :
    ∀ e ∈ Relocation.fields rs, e.Within (p.rebased base image).length := by
  rw [length_rebased _ hfits]
  exact Relocation.within_of_mem_fields happly

theorem length_moved : (p.moved base a rs image).length = image.length := by
  rw [moved, Bytes.length_foldl_adjusted (fields_within_rebased hfits happly base), length_rebased _ hfits]

theorem agree_moved {e : Extent} (hbase : e.Apart p.baseField)
    (hfields : ∀ f ∈ Relocation.fields rs, e.Apart f) : Bytes.Agree e (p.moved base a rs image) image := by
  intro i hi
  rw [moved, Bytes.agree_foldl_adjusted (fields_within_rebased hfits happly base) hfields i hi,
    agree_rebased base hfits hbase i hi]

theorem getElem?_moved {i : Nat} (hbase : ¬p.baseField.Holds i)
    (hfields : ∀ f ∈ Relocation.fields rs, ¬f.Holds i) : (p.moved base a rs image)[i]? = image[i]? := by
  have hself : Extent.Holds ⟨i, 1⟩ i := ⟨Nat.le_refl i, Nat.lt_succ_self i⟩
  have halone : ∀ f : Extent, ¬f.Holds i → Extent.Apart ⟨i, 1⟩ f := by
    rintro f hf j ⟨⟨hle, hlt⟩, hj⟩
    obtain rfl : j = i := Nat.le_antisymm (Nat.lt_succ_iff.mp hlt) hle
    exact hf hj
  exact agree_moved hfits happly (halone _ hbase) (fun f hf => halone f (hfields f hf)) i hself

theorem base_moved (hheader : ∀ e ∈ Relocation.fields rs, p.baseField.Apart e) :
    (p.moved base a rs image).u64? p.imageBaseOffset = some base := by
  have hwithin := fields_within_rebased hfits happly base
  have hagree := Bytes.agree_foldl_adjusted (a := a) hwithin hheader
  rw [moved, Bytes.u64?_congr (Bytes.length_foldl_adjusted hwithin) hagree, base_rebased hfits]

theorem word?_moved (hheader : ∀ e ∈ Relocation.fields rs, p.baseField.Apart e)
    (hapart : (Relocation.fields rs).Pairwise Extent.Apart) {e : Extent} (he : e ∈ Relocation.fields rs) :
    (p.moved base a rs image).word? e.length e.offset =
      (image.word? e.length e.offset).map fun n => (n + a.toNat) % 1 <<< (8 * e.length) := by
  have hagree := agree_rebased base hfits (hheader e he).symm
  rw [moved, Bytes.word?_foldl_adjusted (fields_within_rebased hfits happly base) hapart he,
    Bytes.word?_congr (length_rebased _ hfits) hagree]

end

/-- The words that the entries name are adjusted, the base is replaced, and everything else stays. -/
theorem relocate_moves_fixups (p : PeImage) (destination : UInt64) (image image' : Bytes)
    (h : p.relocate destination image = .ok () image')
    (hapart : (p.baseField :: Relocation.fields (p.fixups (p.rebased destination image))).Pairwise
      Extent.Apart) :
    ∃ base, image.u64? p.imageBaseOffset = some base ∧
      image'.length = image.length ∧
      image'.u64? p.imageBaseOffset = some destination ∧
      (∀ r ∈ p.fixups (p.rebased destination image),
        (r.type = RelocationBlock.dir64 →
          image'.u64? r.place = (image.u64? r.place).map (· + (destination - base))) ∧
        (r.type = RelocationBlock.highLow →
          image'.u32? r.place = (image.u32? r.place).map (· + (destination - base).toUInt32)) ∧
        (destination ≠ base → r.Applies image.length)) ∧
      (∀ i, ¬p.baseField.Holds i →
        (∀ e ∈ Relocation.fields (p.fixups (p.rebased destination image)), ¬e.Holds i) →
        image'[i]? = image[i]?) ∧
      (p.relocations = none → image' = p.rebased destination image) := by
  obtain ⟨base, hbase, ⟨rfl, rfl⟩ | ⟨hmoved, rs, hlisted, happly, rfl⟩⟩ := relocate_eq_ok_iff.mp h
  · refine ⟨destination, hbase, rfl, hbase, ?_, fun _ _ _ => rfl, fun _ => (rebased_base hbase).symm⟩
    intro r _
    refine ⟨fun _ => ?_, fun _ => ?_, fun hmoved => absurd rfl hmoved⟩
    · simp
    · simp
  rw [fixups_eq hlisted] at hapart ⊢
  obtain ⟨hheader, hfields⟩ := List.pairwise_cons.mp hapart
  have hfits := baseField_within hbase
  refine ⟨base, hbase, length_moved hfits happly, base_moved hfits happly hheader, ?_, ?_, ?_⟩
  · intro r hr
    refine ⟨fun htype => ?_, fun htype => ?_, fun _ => happly r hr⟩
    · have hmem := Relocation.mem_fields hr (Relocation.field?_of_dir64 htype)
      exact Bytes.u64?_of_word? (word?_moved hfits happly hheader hfields hmem)
    · have hmem := Relocation.mem_fields hr (Relocation.field?_of_highLow htype)
      exact Bytes.u32?_of_word? (word?_moved hfits happly hheader hfields hmem)
  · exact fun i => getElem?_moved hfits happly
  · intro hnone
    rw [listed, hnone] at hlisted
    cases hlisted
    rfl

def tinyHeaders : PeImage := ⟨0, 0, 32, 16, 8, [], some ⟨8, 12⟩⟩

def tinyImage (base : UInt64) : Bytes :=
  le64 base ++ (le32 0 ++ le32 12 ++ le16 0x3014 ++ le16 0xA018) ++ le32 (base.toUInt32 + 0x10) ++
    le64 (base + 0x18)

theorem listed_tiny : tinyHeaders.listed (tinyHeaders.rebased 0x80000000 (tinyImage 0x10000000)) =
    .ok [⟨0, 0x3014⟩, ⟨0, 0xA018⟩] := by decide +kernel

theorem relocate_tiny :
    tinyHeaders.relocate 0x80000000 (tinyImage 0x10000000) = .ok () (tinyImage 0x80000000) :=
  relocate_eq_ok_iff.mpr ⟨0x10000000, by decide, .inr ⟨by decide, _, listed_tiny, by decide, by decide⟩⟩

theorem relocate_moves_fixups_tiny :
    tinyHeaders.relocate 0x80000000 (tinyImage 0x10000000) = .ok () (tinyImage 0x80000000) ∧
      (tinyHeaders.baseField :: Relocation.fields
        (tinyHeaders.fixups (tinyHeaders.rebased 0x80000000 (tinyImage 0x10000000)))).Pairwise
        Extent.Apart ∧
      ∃ base, (tinyImage 0x10000000).u64? 0 = some base ∧
        (tinyImage 0x80000000).u64? 24 = ((tinyImage 0x10000000).u64? 24).map (· + (0x80000000 - base)) ∧
        (tinyImage 0x80000000).u32? 20 =
          ((tinyImage 0x10000000).u32? 20).map (· + (0x80000000 - base).toUInt32) := by
  have hapart : (tinyHeaders.baseField :: Relocation.fields
      (tinyHeaders.fixups (tinyHeaders.rebased 0x80000000 (tinyImage 0x10000000)))).Pairwise
      Extent.Apart := by
    rw [fixups_eq listed_tiny]
    decide
  obtain ⟨base, hbase, -, -, hentries, -⟩ := relocate_moves_fixups _ _ _ _ relocate_tiny hapart
  rw [fixups_eq listed_tiny] at hentries
  exact ⟨relocate_tiny, hapart, base, hbase, (hentries ⟨0, 0xA018⟩ (by decide)).1 (by decide),
    (hentries ⟨0, 0x3014⟩ (by decide)).2.1 (by decide)⟩

/-! ### How a move ends -/

section
variable (hbase : image.u64? p.imageBaseOffset = some base) (hmoved : destination ≠ base)
include hbase hmoved

theorem relocate_unlisted {e : PeError} (h : p.listed (p.rebased destination image) = .error e) :
    Step.answer (p.relocate destination) image = .error (.error e) := by
  have hrun := relocate_eq destination hbase
  rw [if_neg hmoved, h] at hrun
  exact Step.answer_eq_error.mpr ⟨_, hrun⟩

theorem relocate_of_applies {rs : List Relocation}
    (h : p.listed (p.rebased destination image) = .ok rs) (happly : ∀ r ∈ rs, r.Applies image.length) :
    Step.answer (p.relocate destination) image = .ok () :=
  Step.answer_eq_ok.mpr
    ⟨_, relocate_eq_ok_iff.mpr ⟨base, hbase, .inr ⟨hmoved, rs, h, happly, rfl⟩⟩⟩

theorem relocate_stops {pre post : List Relocation} {r : Relocation} {failure : Fault PeError}
    (h : p.listed (p.rebased destination image) = .ok (pre ++ r :: post))
    (happly : ∀ q ∈ pre, q.Applies image.length)
    (hr : ∀ bytes : Bytes, bytes.length = image.length →
      r.apply (destination - base) bytes = .error failure bytes) :
    Step.answer (p.relocate destination) image = .error failure := by
  have hrun := relocate_eq destination hbase
  have hlength := length_rebased destination (baseField_within hbase)
  rw [if_neg hmoved, h] at hrun
  have hstop := Relocation.forM_stops post (hlength ▸ happly) fun bytes hbytes =>
    hr bytes (hbytes.trans hlength)
  exact Step.answer_eq_error.mpr ⟨_, hrun.trans hstop⟩

end

theorem listed_of_outside {directory : PeDirectory} (hdirectory : p.relocations = some directory)
    (hout : image.length < directory.address.toNat + directory.size.toNat) :
    p.listed image = .error (.bufferTooShort directory.size.toNat .image) := by
  rw [listed, hdirectory]
  dsimp only
  rw [Bytes.slice?_eq, if_neg (Nat.not_le.mpr hout)]

theorem listed_of_data {directory : PeDirectory} {data : Bytes} (hdirectory : p.relocations = some directory)
    (hdata : image.slice? directory.address.toNat directory.size.toNat = some data) :
    p.listed image = (RelocationBlock.readAll data).map Relocation.ofBlocks := by
  rw [listed, hdirectory]
  dsimp only
  rw [hdata]

/-- Without a directory, or to the base it already has, every image can be moved. Otherwise a directory or
block data that cannot be read is reported, and then the first entry that does not apply decides. -/
theorem relocate_reports (p : PeImage) (destination base : UInt64) (image : Bytes)
    (hbase : image.u64? p.imageBaseOffset = some base) :
    (destination = base ∨ p.relocations = none →
      Step.answer (p.relocate destination) image = .ok ()) ∧
    ∀ directory, p.relocations = some directory → destination ≠ base →
      (image.length < directory.address.toNat + directory.size.toNat →
        Step.answer (p.relocate destination) image =
          .error (.error (.bufferTooShort directory.size.toNat .image))) ∧
      ∀ data, (p.rebased destination image).slice? directory.address.toNat directory.size.toNat = some data →
        (∀ e, RelocationBlock.readAll data = .error e →
          Step.answer (p.relocate destination) image = .error (.error e)) ∧
        ∀ blocks, RelocationBlock.readAll data = .ok blocks →
          ((∀ r ∈ Relocation.ofBlocks blocks, r.Applies image.length) →
            Step.answer (p.relocate destination) image = .ok ()) ∧
          ∀ pre r post, Relocation.ofBlocks blocks = pre ++ r :: post →
            (∀ q ∈ pre, q.Applies image.length) →
            (UInt32.size ≤ r.place →
              Step.answer (p.relocate destination) image = .error (.halt .overflow)) ∧
            (r.place < UInt32.size → r.type ≠ RelocationBlock.absolute →
              r.type ≠ RelocationBlock.highLow → r.type ≠ RelocationBlock.dir64 →
              Step.answer (p.relocate destination) image =
                .error (.error (.unsupportedRelocation r.type))) ∧
            (r.place < UInt32.size →
              r.type = RelocationBlock.highLow ∧ image.length < r.place + 4 ∨
                r.type = RelocationBlock.dir64 ∧ image.length < r.place + 8 →
              Step.answer (p.relocate destination) image = .error (.error .unreadable)) := by
  constructor
  · rintro (rfl | hnone)
    · exact Step.answer_eq_ok.mpr ⟨_, relocate_eq_ok_iff.mpr ⟨_, hbase, .inl ⟨rfl, rfl⟩⟩⟩
    · by_cases hmoved : destination = base
      · exact Step.answer_eq_ok.mpr ⟨_, relocate_eq_ok_iff.mpr ⟨_, hbase, .inl ⟨hmoved, rfl⟩⟩⟩
      · have hlisted : p.listed (p.rebased destination image) = .ok [] := by rw [listed, hnone]
        exact relocate_of_applies hbase hmoved hlisted fun r hr => absurd hr List.not_mem_nil
  intro directory hdirectory hmoved
  constructor
  · intro hout
    rw [← length_rebased destination (baseField_within hbase)] at hout
    exact relocate_unlisted hbase hmoved (listed_of_outside hdirectory hout)
  intro data hdata
  have hlisted := listed_of_data hdirectory hdata
  constructor
  · intro e hread
    exact relocate_unlisted hbase hmoved (by rw [hlisted, hread]; rfl)
  intro blocks hread
  have hblocks : p.listed (p.rebased destination image) = .ok (Relocation.ofBlocks blocks) := by
    rw [hlisted, hread]
    rfl
  constructor
  · exact relocate_of_applies hbase hmoved hblocks
  intro pre r post hsplit happly
  rw [hsplit] at hblocks
  refine ⟨fun hplace => ?_, fun hplace habsolute hhighLow hdir64 => ?_, fun hplace hout => ?_⟩
  · exact relocate_stops hbase hmoved hblocks happly fun _ _ => Relocation.apply_of_unnamed hplace
  · exact relocate_stops hbase hmoved hblocks happly fun _ _ =>
      Relocation.apply_of_unsupported hplace habsolute (Relocation.field?_of_other hhighLow hdir64)
  · obtain ⟨e, hfield, hlong⟩ : ∃ e, r.field? = some e ∧ image.length < e.offset + e.length := by
      rcases hout with ⟨htype, hlong⟩ | ⟨htype, hlong⟩
      · exact ⟨_, Relocation.field?_of_highLow htype, hlong⟩
      · exact ⟨_, Relocation.field?_of_dir64 htype, hlong⟩
    exact relocate_stops hbase hmoved hblocks happly fun _ hbytes =>
      Relocation.apply_of_outside hplace hfield (hbytes ▸ Nat.not_le.mpr hlong)

def strangeImage (page : UInt32) (entry : UInt16) : Bytes :=
  le64 0x10000000 ++ (le32 page ++ le32 12 ++ le16 entry ++ le16 0) ++ List.replicate 12 0

theorem relocate_reports_unsupported :
    (strangeImage 0 0x5010).u64? 0 = some 0x10000000 ∧
      Step.answer (tinyHeaders.relocate 0x80000000) (strangeImage 0 0x5010) =
        .error (.error (.unsupportedRelocation 5)) := by
  have hbase : (strangeImage 0 0x5010).u64? 0 = some 0x10000000 := by decide
  obtain ⟨-, hfailures⟩ := relocate_reports tinyHeaders 0x80000000 _ _ hbase
  have hread : RelocationBlock.readAll ((strangeImage 0 0x5010).drop 8 |>.take 12) =
      .ok [⟨0, [0x5010, 0]⟩] := by decide +kernel
  have hfirst := (((hfailures _ rfl (by decide)).2 _ (by decide)).2 _ hread).2 [] _ _ rfl (by simp)
  exact ⟨hbase, hfirst.2.1 (by decide) (by decide) (by decide) (by decide)⟩

/-- A word outside of the image is not reported as a buffer that is too short, and a place that 32 bits
cannot name stops the machine. -/
theorem strange_entries_misreported :
    tinyHeaders.listed (tinyHeaders.rebased 0x80000000 (strangeImage 0x1000 0xA000)) =
        .ok [⟨0x1000, 0xA000⟩, ⟨0x1000, 0⟩] ∧
      Relocation.field? ⟨0x1000, 0xA000⟩ = some ⟨0x1000, 8⟩ ∧
      ¬Extent.Within ⟨0x1000, 8⟩ (strangeImage 0x1000 0xA000).length ∧
      Step.answer (tinyHeaders.relocate 0x80000000) (strangeImage 0x1000 0xA000) =
        .error (.error .unreadable) ∧
      Step.answer (tinyHeaders.relocate 0x80000000) (strangeImage 0xFFFFF001 0xAFFF) =
        .error (.halt .overflow) := by
  have houtside : tinyHeaders.listed (tinyHeaders.rebased 0x80000000 (strangeImage 0x1000 0xA000)) =
      .ok ([] ++ ⟨0x1000, 0xA000⟩ :: [⟨0x1000, 0⟩]) := by decide +kernel
  have hunnamed : tinyHeaders.listed (tinyHeaders.rebased 0x80000000 (strangeImage 0xFFFFF001 0xAFFF)) =
      .ok ([] ++ ⟨0xFFFFF001, 0xAFFF⟩ :: [⟨0xFFFFF001, 0⟩]) := by decide +kernel
  have hbase : (strangeImage 0x1000 0xA000).u64? 0 = some 0x10000000 := by decide
  have hbase' : (strangeImage 0xFFFFF001 0xAFFF).u64? 0 = some 0x10000000 := by decide
  have hmoved : (0x80000000 : UInt64) ≠ 0x10000000 := by decide
  refine ⟨houtside, by decide, by decide, ?_, ?_⟩
  · refine relocate_stops hbase hmoved houtside (by simp) fun bytes hbytes => ?_
    refine Relocation.apply_of_outside (e := ⟨0x1000, 8⟩) (by decide) (by decide) ?_
    rw [hbytes]
    decide
  · exact relocate_stops hbase' hmoved hunnamed (by simp) fun _ _ =>
      Relocation.apply_of_unnamed (by decide)

end PeImage
end PlatformInit
