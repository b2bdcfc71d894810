import PlatformInit.Pe.Loading
import PlatformInit.Proofs.Bytes.Overwriting
import PlatformInit.Proofs.Contract

/-!
What a buffer holds once an image was laid out in it.

The headers and the sections are parts of the file that are copied one after the other. Each byte of
the buffer is therefore supplied by the last part that has a place for it, and where no part has one it
is zero. A part that does not fit the file or the buffer is the only thing that ends a layout early.
-/
set_option autoImplicit false
namespace PlatformInit

open Step (Ends Returns)

/-- How many bytes of a section are loaded: what it takes in memory, unless it takes nothing there or
more than the file has. -/
def PeSection.kept (s : PeSection) : Nat :=
  if 0 < s.virtualSize.toNat ∧ s.virtualSize.toNat ≤ s.rawSize.toNat then s.virtualSize.toNat
  else s.rawSize.toNat

theorem PeSection.toNat_loadedSize (s : PeSection) : s.loadedSize.toNat = s.kept := by
  have hempty : s.virtualSize = 0 ↔ s.virtualSize.toNat = 0 := UInt32.toNat_inj.symm
  rw [loadedSize, kept]
  by_cases hraw : s.virtualSize = 0 ∨ s.rawSize < s.virtualSize
  · rw [if_pos hraw]
    rw [hempty, UInt32.lt_iff_toNat_lt] at hraw
    rw [if_neg (by omega)]
  · rw [if_neg hraw]
    rw [hempty, UInt32.lt_iff_toNat_lt] at hraw
    rw [if_pos (by omega)]

/-- The section has a place for the byte at an address of the laid out image. -/
def PeSection.Holds (s : PeSection) (i : Nat) : Prop :=
  s.virtualAddress.toNat ≤ i ∧ i < s.virtualAddress.toNat + s.kept

instance (s : PeSection) (i : Nat) : Decidable (s.Holds i) := inferInstanceAs (Decidable (_ ∧ _))

theorem PeSection.stop_lt (s : PeSection) : s.virtualAddress.toNat + s.kept < UInt64.size ∧
    s.rawPointer.toNat + s.kept < UInt64.size := by
  have hkept := s.loadedSize.toNat_lt_size
  rw [s.toNat_loadedSize] at hkept
  have haddress := s.virtualAddress.toNat_lt_size
  have hpointer := s.rawPointer.toNat_lt_size
  have hwords : UInt32.size + UInt32.size < UInt64.size := by decide
  exact ⟨by omega, by omega⟩

namespace PeImage

structure Part where
  source : Nat
  target : Nat
  length : Nat

namespace Part

def inFile (a : Part) : Extent := ⟨a.source, a.length⟩

def inMemory (a : Part) : Extent := ⟨a.target, a.length⟩

def Fits (fileSize bufferSize : Nat) (a : Part) : Prop :=
  a.inMemory.Within bufferSize ∧ a.inFile.Within fileSize

def put (image loaded : Bytes) (a : Part) : Bytes :=
  loaded.overwrite a.target ((image.drop a.source).take a.length)

def copy (image : Bytes) (a : Part) : Step Bytes PeError Unit :=
  PeImage.copy image a.source a.target a.length

variable {image loaded : Bytes} {a : Part} {parts : List Part}

/-! ### One part -/

theorem length_take_drop (h : a.inFile.Within image.length) :
    ((image.drop a.source).take a.length).length = a.length := by
  change a.source + a.length ≤ image.length at h
  rw [List.length_take, List.length_drop]
  omega

theorem length_put (h : a.Fits image.length loaded.length) : (put image loaded a).length = loaded.length :=
  Bytes.length_overwrite (by rw [length_take_drop h.2]; exact h.1)

theorem getElem?_put (h : a.Fits image.length loaded.length) (i : Nat) :
    (put image loaded a)[i]? =
      if a.inMemory.Holds i then image[a.source + (i - a.target)]? else loaded[i]? := by
  have hlength := length_take_drop h.2
  rw [put, Bytes.getElem?_overwrite (by rw [hlength]; exact h.1), hlength]
  change (if a.inMemory.Holds i then ((image.drop a.source).take a.length)[i - a.target]? else _) = _
  by_cases hin : a.inMemory.Holds i
  · have hbounds : a.target ≤ i ∧ i < a.target + a.length := hin
    rw [if_pos hin, if_pos hin, List.getElem?_take, if_pos (by omega), List.getElem?_drop]
  · rw [if_neg hin, if_neg hin]

theorem copy_of_fits (h : a.Fits image.length loaded.length) :
    a.copy image loaded = .ok () (put image loaded a) := by
  have hroom : loaded.reaches (a.target + a.length) = true := Bytes.reaches_iff.mpr h.1
  rw [copy, PeImage.copy, Step.bind_of_ok (Step.get_eq_ok.mpr ⟨rfl, rfl⟩), if_pos hroom, Bytes.slice?_eq,
    if_pos (show a.source + a.length ≤ image.length from h.2)]
  rfl

theorem copy_of_not_fits (h : ¬a.Fits image.length loaded.length) :
    ∃ buffer, a.copy image loaded = .error (.error (.bufferTooShort a.length buffer)) loaded := by
  rw [copy, PeImage.copy, Step.bind_of_ok (Step.get_eq_ok.mpr ⟨rfl, rfl⟩)]
  by_cases hroom : loaded.reaches (a.target + a.length) = true
  · have hshort : ¬a.source + a.length ≤ image.length := fun hfile =>
      h ⟨Bytes.reaches_iff.mp hroom, hfile⟩
    rw [if_pos hroom, Bytes.slice?_eq, if_neg hshort]
    exact ⟨.image, rfl⟩
  · rw [if_neg hroom]
    exact ⟨.loadedImage, rfl⟩

/-! ### All parts -/

theorem length_foldl_put (h : ∀ a ∈ parts, a.Fits image.length loaded.length) :
    (parts.foldl (put image) loaded).length = loaded.length := by
  induction parts generalizing loaded with
  | nil => rfl
  | cons a parts ih =>
    obtain ⟨ha, hparts⟩ := List.forall_mem_cons.mp h
    have hlength := length_put ha
    rw [List.foldl_cons, ih (by rwa [hlength]), hlength]

theorem getElem?_foldl_put_of_not_holds (h : ∀ a ∈ parts, a.Fits image.length loaded.length) {i : Nat}
    (hi : ∀ a ∈ parts, ¬a.inMemory.Holds i) : (parts.foldl (put image) loaded)[i]? = loaded[i]? := by
  induction parts generalizing loaded with
  | nil => rfl
  | cons a parts ih =>
    obtain ⟨ha, hparts⟩ := List.forall_mem_cons.mp h
    obtain ⟨hout, hrest⟩ := List.forall_mem_cons.mp hi
    rw [List.foldl_cons, ih (by rwa [length_put ha]) hrest, getElem?_put ha, if_neg hout]

/-- The last part with a place for a byte supplies it. -/
theorem getElem?_foldl_put {before after : List Part}
    (h : ∀ b ∈ before ++ a :: after, b.Fits image.length loaded.length) {i : Nat}
    (hi : a.inMemory.Holds i) (hafter : ∀ b ∈ after, ¬b.inMemory.Holds i) :
    ((before ++ a :: after).foldl (put image) loaded)[i]? = image[a.source + (i - a.target)]? := by
  obtain ⟨hbefore, hrest⟩ := List.forall_mem_append.mp h
  have hlength := length_foldl_put hbefore
  rw [← hlength] at hrest
  obtain ⟨ha, hafterFits⟩ := List.forall_mem_cons.mp hrest
  rw [List.foldl_append, List.foldl_cons,
    getElem?_foldl_put_of_not_holds (by rwa [length_put ha]) hafter, getElem?_put ha, if_pos hi]

theorem forM_copy_of_fits (h : ∀ a ∈ parts, a.Fits image.length loaded.length) :
    parts.forM (copy image) loaded = .ok () (parts.foldl (put image) loaded) := by
  induction parts generalizing loaded with
  | nil => rfl
  | cons a parts ih =>
    obtain ⟨ha, hparts⟩ := List.forall_mem_cons.mp h
    exact (Step.bind_of_ok (copy_of_fits ha)).trans (ih (by rwa [length_put ha]))

theorem forM_copy_of_not_fits (h : ¬∀ a ∈ parts, a.Fits image.length loaded.length) :
    ∃ n buffer loaded', parts.forM (copy image) loaded =
      .error (.error (.bufferTooShort n buffer)) loaded' := by
  induction parts generalizing loaded with
  | nil => exact absurd (List.forall_mem_nil _) h
  | cons a parts ih =>
    by_cases ha : a.Fits image.length loaded.length
    · have hparts : ¬∀ b ∈ parts, b.Fits image.length (put image loaded a).length := fun hall =>
        h (List.forall_mem_cons.mpr ⟨ha, by rwa [length_put ha] at hall⟩)
      obtain ⟨n, buffer, loaded', hend⟩ := ih hparts
      exact ⟨n, buffer, loaded', (Step.bind_of_ok (copy_of_fits ha)).trans hend⟩
    · obtain ⟨buffer, hend⟩ := copy_of_not_fits ha
      exact ⟨a.length, buffer, loaded, Step.bind_of_error hend⟩

end Part

/-! ### The image -/

def headerPart (p : PeImage) : Part := ⟨0, 0, p.sizeOfHeaders.toNat⟩

def sectionPart (s : PeSection) : Part := ⟨s.rawPointer.toNat, s.virtualAddress.toNat, s.kept⟩

def parts (p : PeImage) : List Part := p.headerPart :: p.sections.map sectionPart

/-- The file and the buffer have room for the headers and for every section. -/
structure Fits (p : PeImage) (fileSize bufferSize : Nat) : Prop where
  headers : p.sizeOfHeaders.toNat ≤ bufferSize ∧ p.sizeOfHeaders.toNat ≤ fileSize
  sections : ∀ s ∈ p.sections, s.virtualAddress.toNat + s.kept ≤ bufferSize ∧
    s.rawPointer.toNat + s.kept ≤ fileSize

/-- A buffer of so many bytes with the image in it. The last section of the table that holds an address
supplies the byte there; without one it comes from the headers, and behind them it is zero. -/
structure LaidOut (p : PeImage) (image : Bytes) (size : Nat) (loaded : Bytes) : Prop where
  length_eq : loaded.length = size
  section_byte : ∀ before s after i, p.sections = before ++ s :: after → s.Holds i →
    (∀ later ∈ after, ¬later.Holds i) →
    loaded[i]? = image[s.rawPointer.toNat + (i - s.virtualAddress.toNat)]?
  header_byte : ∀ i < p.sizeOfHeaders.toNat, (∀ s ∈ p.sections, ¬s.Holds i) → loaded[i]? = image[i]?
  zero_byte : ∀ i < size, p.sizeOfHeaders.toNat ≤ i → (∀ s ∈ p.sections, ¬s.Holds i) →
    loaded[i]? = some 0

variable {p : PeImage} {image buffer : Bytes}

theorem headerPart_fits_iff (fileSize bufferSize : Nat) : p.headerPart.Fits fileSize bufferSize ↔
    p.sizeOfHeaders.toNat ≤ bufferSize ∧ p.sizeOfHeaders.toNat ≤ fileSize := by
  change 0 + p.sizeOfHeaders.toNat ≤ bufferSize ∧ 0 + p.sizeOfHeaders.toNat ≤ fileSize ↔ _
  rw [Nat.zero_add]

theorem headerPart_holds_iff (i : Nat) : p.headerPart.inMemory.Holds i ↔ i < p.sizeOfHeaders.toNat := by
  change 0 ≤ i ∧ i < 0 + p.sizeOfHeaders.toNat ↔ _
  rw [Nat.zero_add, and_iff_right (Nat.zero_le i)]

theorem fits_iff (fileSize bufferSize : Nat) :
    p.Fits fileSize bufferSize ↔ ∀ a ∈ p.parts, a.Fits fileSize bufferSize := by
  rw [parts, List.forall_mem_cons, List.forall_mem_map, headerPart_fits_iff]
  exact ⟨fun h => ⟨h.headers, h.sections⟩, fun h => ⟨h.1, h.2⟩⟩

theorem load_eq (p : PeImage) (image buffer : Bytes) :
    p.load image buffer = p.parts.forM (Part.copy image) (List.replicate buffer.length 0) := by
  have hsections : (fun s : PeSection =>
      PeImage.copy image s.rawPointer.toNat s.virtualAddress.toNat s.loadedSize.toNat) =
      fun s => (sectionPart s).copy image := by
    funext s
    rw [s.toNat_loadedSize]
    rfl
  rw [load, hsections]
  refine (Step.bind_of_ok (t := List.replicate buffer.length 0) rfl).trans ?_
  change (p.headerPart.copy image >>= fun _ => forM p.sections fun s => (sectionPart s).copy image) _ =
    (p.headerPart.copy image >>= fun _ => forM (p.sections.map sectionPart) (Part.copy image)) _
  rw [List.forM_map]

theorem load_of_fits (h : p.Fits image.length buffer.length) : p.load image buffer =
    .ok () (p.parts.foldl (Part.put image) (List.replicate buffer.length 0)) := by
  rw [load_eq]
  refine Part.forM_copy_of_fits ?_
  rw [List.length_replicate]
  exact (fits_iff _ _).mp h

theorem load_of_not_fits (h : ¬p.Fits image.length buffer.length) :
    ∃ n short loaded, p.load image buffer = .error (.error (.bufferTooShort n short)) loaded := by
  rw [load_eq]
  refine Part.forM_copy_of_not_fits ?_
  rw [List.length_replicate]
  exact mt (fits_iff _ _).mpr h

theorem load_returns (p : PeImage) (image buffer : Bytes) :
    Ends (p.load image) buffer fun r _ => Returns r := by
  by_cases hfits : p.Fits image.length buffer.length
  · exact Ends.of_eq_ok (load_of_fits hfits) trivial
  · obtain ⟨n, short, left, hload⟩ := load_of_not_fits hfits
    exact Ends.of_eq_error hload trivial

theorem laidOut_of_fits (h : p.Fits image.length buffer.length) : p.LaidOut image buffer.length
    (p.parts.foldl (Part.put image) (List.replicate buffer.length 0)) := by
  have hzeros : (List.replicate buffer.length (0 : UInt8)).length = buffer.length := List.length_replicate
  have hfits := (fits_iff _ _).mp h
  rw [← hzeros] at hfits
  have hnone {i : Nat} (hi : ∀ s ∈ p.sections, ¬s.Holds i) :
      ∀ a ∈ p.sections.map sectionPart, ¬a.inMemory.Holds i := List.forall_mem_map.mpr hi
  constructor
  case length_eq => rw [Part.length_foldl_put hfits, hzeros]
  case section_byte =>
    intro before s after i hsplit hs hafter
    have hparts : p.parts = (p.headerPart :: before.map sectionPart) ++ sectionPart s ::
        after.map sectionPart := by
      rw [parts, hsplit, List.map_append, List.map_cons, List.cons_append]
    rw [hparts] at hfits ⊢
    exact Part.getElem?_foldl_put hfits hs (List.forall_mem_map.mpr hafter)
  case header_byte =>
    intro i hi hsections
    have hparts : ∀ b ∈ [] ++ p.headerPart :: p.sections.map sectionPart,
        b.Fits image.length (List.replicate buffer.length (0 : UInt8)).length := hfits
    have hbyte := Part.getElem?_foldl_put hparts ((headerPart_holds_iff i).mpr hi) (hnone hsections)
    change (p.parts.foldl _ _)[i]? = image[0 + (i - 0)]? at hbyte
    rwa [Nat.zero_add, Nat.sub_zero] at hbyte
  case zero_byte =>
    intro i hi hbehind hsections
    have hheader : ¬p.headerPart.inMemory.Holds i := mt (headerPart_holds_iff i).mp (Nat.not_lt.mpr hbehind)
    rw [Part.getElem?_foldl_put_of_not_holds hfits (List.forall_mem_cons.mpr ⟨hheader, hnone hsections⟩),
      List.getElem?_replicate, if_pos hi]

/-- An image is laid out exactly when the file and the buffer have room for its headers and sections, and
otherwise the layout is refused. What the buffer held before does not matter. -/
theorem load_lays_out (p : PeImage) (image buffer : Bytes) :
    Returns (Step.answer (p.load image) buffer) ∧
      (∀ s ∈ p.sections, s.virtualAddress.toNat + s.kept < UInt64.size ∧
        s.rawPointer.toNat + s.kept < UInt64.size) ∧
      (Step.answer (p.load image) buffer = .ok () ↔ p.Fits image.length buffer.length) ∧
      (∀ loaded, p.load image buffer = .ok () loaded → p.LaidOut image buffer.length loaded) ∧
      ∀ buffer', buffer'.length = buffer.length → p.load image buffer' = p.load image buffer := by
  have hbuffer : ∀ buffer', buffer'.length = buffer.length →
      p.load image buffer' = p.load image buffer := fun buffer' hlength => by
    rw [load_eq, hlength, load_eq]
  have hreturns : Returns (Step.answer (p.load image) buffer) :=
    Ends.iff_answer.mp (p.load_returns image buffer)
  have hends : ∀ s ∈ p.sections, s.virtualAddress.toNat + s.kept < UInt64.size ∧
      s.rawPointer.toNat + s.kept < UInt64.size := fun s _ => s.stop_lt
  by_cases hfits : p.Fits image.length buffer.length
  · have hload := load_of_fits hfits
    refine ⟨hreturns, hends, iff_of_true (Step.answer_eq_ok.mpr ⟨_, hload⟩) hfits, fun loaded hloaded => ?_,
      hbuffer⟩
    cases hload.symm.trans hloaded
    exact laidOut_of_fits hfits
  · obtain ⟨n, short, left, hload⟩ := load_of_not_fits hfits
    have hfails : ∀ loaded, p.load image buffer ≠ .ok () loaded := by
      intro loaded hloaded
      cases hload.symm.trans hloaded
    refine ⟨hreturns, hends, iff_of_false (fun hok => ?_) hfits,
      fun loaded hloaded => absurd hloaded (hfails loaded), hbuffer⟩
    obtain ⟨loaded, hloaded⟩ := Step.answer_eq_ok.mp hok
    exact hfails loaded hloaded

def stackedSection (address virtualSize rawPointer rawSize : UInt32) : PeSection :=
  ⟨[], virtualSize, address, rawSize, rawPointer, 0, 0, 0⟩

def stackedHeaders : PeImage :=
  ⟨0, 0, 8, 1, 3, [stackedSection 2 0 3 2, stackedSection 3 9 5 2, stackedSection 4 1 7 3], none⟩

def stackedFile : Bytes := [1, 2, 3, 4, 5, 6, 7, 8, 9, 10]

theorem load_lays_out_stacked : stackedHeaders.Fits stackedFile.length 8 ∧
    ∃ loaded, stackedHeaders.load stackedFile (List.replicate 8 0xFF) = .ok () loaded ∧
      loaded.length = 8 ∧ loaded[1]? = some 2 ∧ loaded[2]? = some 4 ∧ loaded[3]? = some 6 ∧
      loaded[4]? = some 8 ∧ loaded[5]? = some 0 := by
  have hfits : stackedHeaders.Fits stackedFile.length 8 := ⟨by decide, by decide⟩
  obtain ⟨-, -, hok, hlaid, -⟩ := load_lays_out stackedHeaders stackedFile (List.replicate 8 0xFF)
  obtain ⟨loaded, hload⟩ := Step.answer_eq_ok.mp (hok.mpr hfits)
  obtain ⟨hlength, hsection, hheader, hzero⟩ := hlaid loaded hload
  refine ⟨hfits, loaded, hload, hlength, hheader 1 (by decide) (by decide), ?_, ?_, ?_,
    hzero 5 (by decide) (by decide) (by decide)⟩
  · exact hsection [] _ _ 2 rfl (by decide) (by decide)
  · exact hsection [_] _ _ 3 rfl (by decide) (by decide)
  · exact hsection [_, _] _ [] 4 rfl (by decide) (by decide)

end PeImage
end PlatformInit
