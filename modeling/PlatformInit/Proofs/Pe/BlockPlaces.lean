import PlatformInit.Proofs.Pe.Blocks

/-!
Relocation blocks at their places.

`blocksAt` goes on from place to place in data that stay whole. The machine stops at any of its sums that
does not fit a word; over bytes that can lie in memory none does, and the blocks are those of `readAll`.
-/
set_option autoImplicit false
namespace PlatformInit.RelocationBlock

/-! ### Reading with checked sums -/

def entriesAt (data : Bytes) (stop offset : Nat) : Fallible PeError (List UInt16 × Nat) :=
  if offset < stop then
    match data.u16? offset with
    | none => .fail .unreadable
    | some entry => do
      let _ ← fit64 (offset + 2)
      let (entries, last) ← entriesAt data stop (offset + 2)
      return (entry :: entries, last)
  else return ([], offset)

def blockAt (data : Bytes) (offset : Nat) : Fallible PeError (RelocationBlock × Nat) :=
  match data.u32? offset, data.u32? (offset + 4) with
  | some page, some size =>
    if size.toNat < headerSize then .fail (.bufferTooShort size.toNat .relocationBlock)
    else do
      let start ← fit64 (offset + headerSize)
      let stop ← fit64 (offset + size.toNat)
      let (entries, last) ← entriesAt data stop start
      let next ← roundUpChecked 4 last
      return (⟨page, entries⟩, next)
  | _, _ => .fail .unreadable

theorem le_of_entriesAt {data : Bytes} {stop offset last : Nat} {entries : List UInt16}
    (h : entriesAt data stop offset = .ok (entries, last)) : offset ≤ last := by
  fun_induction entriesAt data stop offset generalizing entries with
  | case1 => cases h
  | case2 offset _ entry _ ih =>
    obtain ⟨-, -, h⟩ := Fallible.bind_eq_ok.mp h
    obtain ⟨⟨rest, last'⟩, hrest, h⟩ := Fallible.bind_eq_ok.mp h
    cases h
    have := ih hrest
    omega
  | case3 =>
    cases h
    exact Nat.le_refl _

theorem lt_of_blockAt {data : Bytes} {offset next : Nat} {b : RelocationBlock}
    (h : blockAt data offset = .ok (b, next)) : offset < next := by
  unfold blockAt at h
  split at h
  · split at h
    · cases h
    obtain ⟨start, hstart, h⟩ := Fallible.bind_eq_ok.mp h
    obtain ⟨stop, -, h⟩ := Fallible.bind_eq_ok.mp h
    obtain ⟨⟨entries, last⟩, hentries, h⟩ := Fallible.bind_eq_ok.mp h
    obtain ⟨next', hnext, h⟩ := Fallible.bind_eq_ok.mp h
    cases h
    obtain ⟨rfl, -⟩ := fit64_eq_ok_iff.mp (Fallible.ofHalting_eq_ok.mp hstart)
    obtain rfl := eq_of_roundUpChecked (Fallible.ofHalting_eq_ok.mp hnext)
    have hlast := le_of_entriesAt hentries
    have hround := le_roundUp (n := last) (show 0 < 4 by decide)
    rw [headerSize] at hlast
    omega
  · cases h

/-- The blocks from `offset` on, each with its place. -/
def blocksAt (data : Bytes) (offset : Nat) : Fallible PeError (List (Nat × RelocationBlock)) :=
  if offset < data.length then
    match _found : blockAt data offset with
    | .error e => .error e
    | .ok (b, next) => (blocksAt data next).map ((offset, b) :: ·)
  else .ok []
termination_by data.length - offset
decreasing_by
  have := lt_of_blockAt _found
  omega

/-! ### No sum overflows -/

section
variable {data : Bytes} {offset : Nat} (hdata : data.Addressable)
include hdata

theorem fit64_of_addressable {n : Nat} (h : n ≤ data.length + UInt32.size) : fit64 n = .ok n := by
  have h32 : UInt32.size = 0x100000000 := rfl
  have h64 : UInt64.size = 0x10000000000000000 := rfl
  rw [Bytes.Addressable] at hdata
  exact fit64_of_lt (by omega)

theorem entriesAt_eq {stop : Nat} (hoffset : offset ≤ data.length) : entriesAt data stop offset =
    match data.slice? offset (2 * ((stop - offset + 1) / 2)) with
    | none => .fail .unreadable
    | some part => .ok (words part, offset + 2 * ((stop - offset + 1) / 2)) := by
  fun_induction entriesAt data stop offset with
  | case1 offset hlt hnone =>
    have hshort : ¬offset + 2 * ((stop - offset + 1) / 2) ≤ data.length := by
      rw [Bytes.u16?, Bytes.word?_eq] at hnone
      split at hnone
      · cases hnone
      · omega
    rw [Bytes.slice?_eq, if_neg hshort]
  | case2 offset hlt entry hentry ih =>
    obtain ⟨hfits, hvalue⟩ := Bytes.u16?_eq_some.mp hentry
    have hcount : 2 * ((stop - offset + 1) / 2) = 2 + 2 * ((stop - (offset + 2) + 1) / 2) := by
      omega
    have hfirst : data.slice? offset 2 = some ((data.drop offset).take 2) := by
      rw [Bytes.slice?_eq, if_pos hfits]
    have hlength := Bytes.length_of_slice? hfirst
    rw [fit64_of_addressable hdata (Nat.le_trans hfits (Nat.le_add_right _ _)), ih hfits, hcount,
      Bytes.slice?_add, hfirst, Option.bind_some, ← Nat.add_assoc]
    cases data.slice? (offset + 2) (2 * ((stop - (offset + 2) + 1) / 2)) with
    | none => rfl
    | some part =>
      rw [Option.map_some]
      dsimp only
      rw [words_append hlength, ← hvalue]
      rfl
  | case3 offset hge =>
    have hzero : 2 * ((stop - offset + 1) / 2) = 0 := by
      omega
    rw [hzero, Bytes.slice?_eq, if_pos (show offset + 0 ≤ data.length from hoffset)]
    rfl

theorem blockAt_eq (halign : 4 ∣ offset) (hoffset : offset ≤ data.length) : blockAt data offset =
    (Fallible.ofExcept (read (data.drop offset))).map fun b => (b, offset + b.stride) := by
  rw [blockAt, read, Bytes.u32?_drop hoffset, Bytes.u32?_drop hoffset, Nat.add_zero]
  cases hpage : data.u32? offset with
  | none => rfl
  | some page =>
    cases hfield : data.u32? (offset + 4) with
    | none => rfl
    | some size =>
      dsimp only
      by_cases hshort : size.toNat < headerSize
      · rw [if_pos hshort, if_pos hshort]
        rfl
      have hsize := size.toNat_lt_size
      have hstart : offset + headerSize ≤ data.length := by
        obtain ⟨n, hword, -⟩ := Option.map_eq_some_iff.mp hfield
        have hend : offset + 4 + 4 ≤ data.length := Bytes.le_length_of_word? hword
        exact hend
      have hsum : offset + size.toNat ≤ data.length + UInt32.size := by
        omega
      have hcount : 2 * ((offset + size.toNat - (offset + headerSize) + 1) / 2) =
          2 * entryCount size.toNat := by
        rw [entryCount]
        omega
      rw [if_neg hshort, if_neg hshort, fit64_of_addressable hdata (by omega),
        fit64_of_addressable hdata hsum, Bytes.slice?_drop hoffset]
      change (entriesAt data (offset + size.toNat) (offset + headerSize) >>= _) = _
      rw [entriesAt_eq hdata hstart, hcount]
      cases hpart : data.slice? (offset + headerSize) (2 * entryCount size.toNat) with
      | none => rfl
      | some part =>
        have hfits := Bytes.le_length_of_slice? hpart
        have hlength : (words part).length = entryCount size.toNat := by
          rw [length_words, Bytes.length_of_slice? hpart]
          omega
        have hnext : roundUpChecked 4 (offset + headerSize + 2 * entryCount size.toNat) =
            .ok (offset + stride ⟨page, words part⟩) := by
          rw [← hlength, ← roundUp_size halign ⟨page, words part⟩]
          refine roundUpChecked_eq ?_
          have hroom : 0x8000000000000000 + 3 < UInt64.size := by decide
          rw [Bytes.Addressable] at hdata
          omega
        dsimp only [bind, Except.bind]
        rw [hnext]
        rfl

theorem blockAt_eq_ok (halign : 4 ∣ offset) (hoffset : offset ≤ data.length) {b : RelocationBlock}
    {next : Nat} (h : blockAt data offset = .ok (b, next)) :
    read (data.drop offset) = .ok b ∧ next = offset + b.stride ∧ 4 ∣ next := by
  rw [blockAt_eq hdata halign hoffset] at h
  cases hread : read (data.drop offset) with
  | error e =>
    rw [hread] at h
    cases h
  | ok b =>
    rw [hread] at h
    cases h
    exact ⟨rfl, rfl, Nat.dvd_add halign (stride_eq b ▸ dvd_roundUp 4 b.size)⟩

theorem blockAt_eq_error (halign : 4 ∣ offset) (hoffset : offset ≤ data.length) {e : Fault PeError}
    (h : blockAt data offset = .error e) : ∃ cause, e = .error cause ∧
      read (data.drop offset) = .error cause := by
  rw [blockAt_eq hdata halign hoffset] at h
  cases hread : read (data.drop offset) with
  | error cause =>
    rw [hread] at h
    cases h
    exact ⟨cause, rfl, rfl⟩
  | ok b =>
    rw [hread] at h
    cases h

theorem blocksAt_eq (halign : 4 ∣ offset) : ∃ r : Except PeError (List (Nat × RelocationBlock)),
    blocksAt data offset = Fallible.ofExcept r ∧ readAll (data.drop offset) = r.map (·.map Prod.snd) := by
  fun_induction blocksAt data offset with
  | case1 offset hlt e hfound =>
    obtain ⟨cause, rfl, hread⟩ := blockAt_eq_error hdata halign (Nat.le_of_lt hlt) hfound
    exact ⟨.error cause, rfl, readAll_of_error hread (mt List.drop_eq_nil_iff.mp (Nat.not_le.mpr hlt))⟩
  | case2 offset hlt b next hfound ih =>
    obtain ⟨hread, rfl, hnext⟩ := blockAt_eq_ok hdata halign (Nat.le_of_lt hlt) hfound
    obtain ⟨r, hplaced, hrest⟩ := ih hnext
    refine ⟨r.map ((offset, b) :: ·), ?_, ?_⟩
    · rw [hplaced]
      cases r <;> rfl
    · rw [readAll_of_read hread (mt List.drop_eq_nil_iff.mp (Nat.not_le.mpr hlt)), List.drop_drop, hrest]
      cases r <;> rfl
  | case3 offset hge =>
    refine ⟨.ok [], rfl, ?_⟩
    rw [List.drop_eq_nil_of_le (Nat.not_lt.mp hge), readAll]
    rfl

end

/-! ### Where blocks stand -/

/-- The block is read from `data` at `place`: its page, a size that makes for as many entries, and its
entries. -/
structure StandsAt (data : Bytes) (place : Nat) (b : RelocationBlock) : Prop where
  aligned : 4 ∣ place
  page : data.u32? place = some b.page
  size : ∃ size, data.u32? (place + 4) = some size ∧ headerSize ≤ size.toNat ∧
    b.entries.length = entryCount size.toNat
  entries : ∀ i (h : i < b.entries.length), data.u16? (place + headerSize + 2 * i) = some b.entries[i]

theorem standsAt_of_read {data : Bytes} {place : Nat} {b : RelocationBlock} (halign : 4 ∣ place)
    (hplace : place ≤ data.length) (h : read (data.drop place) = .ok b) : StandsAt data place b := by
  unfold read at h
  rw [Bytes.u32?_drop hplace, Bytes.u32?_drop hplace] at h
  split at h
  · rename_i page size hpage hfield
    split at h
    · cases h
    rename_i hsize
    split at h
    · cases h
    rename_i part hpart
    cases h
    rw [Bytes.slice?_drop hplace] at hpart
    have hlength := Bytes.length_of_slice? hpart
    refine ⟨halign, hpage, ⟨size, hfield, Nat.not_lt.mp hsize, ?_⟩, fun i hi => ?_⟩
    · rw [length_words, hlength]
      omega
    · rw [← hlength] at hpart
      rw [length_words] at hi
      rw [Bytes.u16?, Bytes.word?_within hpart (by omega), ← Bytes.u16?, ← getElem?_words,
        List.getElem?_eq_getElem]
  · cases h

theorem standsAt_of_blocksAt {data : Bytes} {offset : Nat} {placed : List (Nat × RelocationBlock)}
    (hdata : data.Addressable) (halign : 4 ∣ offset) (h : blocksAt data offset = .ok placed) :
    (∀ p ∈ placed, offset ≤ p.1 ∧ p.2.StandsAt data p.1) ∧ placed.Pairwise fun p q => p.1 < q.1 := by
  fun_induction blocksAt data offset generalizing placed with
  | case1 => cases h
  | case2 offset hlt b next hfound ih =>
    cases hrest : blocksAt data next with
    | error e =>
      rw [hrest] at h
      cases h
    | ok rest =>
      rw [hrest] at h
      cases h
      obtain ⟨hread, -, hnext⟩ := blockAt_eq_ok hdata halign (Nat.le_of_lt hlt) hfound
      obtain ⟨hstands, hrising⟩ := ih hnext hrest
      have hbehind := lt_of_blockAt hfound
      refine ⟨List.forall_mem_cons.mpr ⟨?_, fun p hp => ?_⟩, .cons (fun p hp => ?_) hrising⟩
      · exact ⟨Nat.le_refl _, standsAt_of_read halign (Nat.le_of_lt hlt) hread⟩
      · exact ⟨Nat.le_trans (Nat.le_of_lt hbehind) (hstands p hp).1, (hstands p hp).2⟩
      · exact Nat.lt_of_lt_of_le hbehind (hstands p hp).1
  | case3 =>
    cases h
    exact ⟨fun p hp => absurd hp List.not_mem_nil, .nil⟩

/-- What is written as blocks is read back as those blocks. Any other bytes are read as blocks or refused,
without an overflow, and blocks that are read stand in the bytes at rising multiples of four. -/
theorem readAll_exact :
    (∀ blocks data, (∀ b ∈ blocks, b.Sized) → Encodes blocks data → readAll data = .ok blocks) ∧
    ∀ data : Bytes, data.Addressable →
      ∃ r : Except PeError (List (Nat × RelocationBlock)), blocksAt data 0 = Fallible.ofExcept r ∧
        readAll data = r.map (·.map Prod.snd) ∧
        ∀ placed, r = .ok placed → (placed.Pairwise fun p q => p.1 < q.1) ∧
          ∀ p ∈ placed, p.2.StandsAt data p.1 := by
  refine ⟨fun blocks data hsized hencodes => readAll_of_encodes hencodes hsized, fun data hdata => ?_⟩
  obtain ⟨r, hplaced, hall⟩ := blocksAt_eq hdata (Nat.dvd_zero 4)
  refine ⟨r, hplaced, hall, ?_⟩
  rintro placed rfl
  obtain ⟨hstands, hrising⟩ := standsAt_of_blocksAt hdata (Nat.dvd_zero 4) hplaced
  exact ⟨hrising, fun p hp => (hstands p hp).2⟩

def twoPages : List RelocationBlock := [⟨0x1000, [0xA008]⟩, ⟨0x2000, [0x3004, 0, 0xA010]⟩]

def twoPagesData : Bytes :=
  [0x00, 0x10, 0, 0, 10, 0, 0, 0, 0x08, 0xA0, 0, 0,
    0x00, 0x20, 0, 0, 14, 0, 0, 0, 0x04, 0x30, 0, 0, 0x10, 0xA0]

theorem readAll_exact_two_pages : (∀ b ∈ twoPages, b.Sized) ∧ Encodes twoPages twoPagesData ∧
    twoPagesData.Addressable ∧ readAll twoPagesData = .ok twoPages ∧
    ∃ placed, blocksAt twoPagesData 0 = .ok placed ∧ placed.map Prod.snd = twoPages ∧
      placed.Pairwise fun p q => p.1 < q.1 := by
  have hsized : ∀ b ∈ twoPages, b.Sized := by decide
  have hgap : ([0, 0] : Bytes).length = gap ⟨0x1000, [0xA008]⟩ := rfl
  have hcut : ([] : Bytes).length ≤ gap ⟨0x2000, [0x3004, 0, 0xA010]⟩ := Nat.zero_le _
  have hencodes : Encodes twoPages twoPagesData := .cons hgap (.last hcut)
  obtain ⟨hround, hplaces⟩ := readAll_exact
  have hall := hround twoPages twoPagesData hsized hencodes
  obtain ⟨r, hplaced, hmap, hstands⟩ := hplaces twoPagesData (by decide)
  rw [hall] at hmap
  cases r with
  | error e => cases hmap
  | ok placed =>
    exact ⟨hsized, hencodes, by decide, hall, placed, hplaced, (Except.ok.inj hmap).symm,
      (hstands placed rfl).1⟩

end PlatformInit.RelocationBlock
