import PlatformInit.Pe.Relocation
import PlatformInit.Proofs.Bytes.Slicing
import PlatformInit.Proofs.Step
import PlatformInit.Proofs.Word.Sums

/-!
Relocation blocks and the bytes that they are written as.

`Encodes` relates blocks to all ways in which they are written down. `readAll` reads each of them back.
-/
set_option autoImplicit false
namespace PlatformInit.RelocationBlock

/-! ### Blocks as they are written -/

def size (b : RelocationBlock) : Nat := headerSize + 2 * b.entries.length

def Sized (b : RelocationBlock) : Prop := b.size < UInt32.size

instance (b : RelocationBlock) : Decidable b.Sized := inferInstanceAs (Decidable (_ < _))

def toBytes (b : RelocationBlock) : Bytes :=
  le32 b.page ++ (le32 (.ofNat b.size) ++ b.entries.flatMap le16)

def gap (b : RelocationBlock) : Nat := roundUp 4 b.size - b.size

/-- `data` holds the blocks one behind the other, with any bytes in the gaps. The gap of the last one may
be cut short. -/
inductive Encodes : List RelocationBlock → Bytes → Prop
  | nil : Encodes [] []
  | last {b : RelocationBlock} {fill : Bytes} : fill.length ≤ b.gap → Encodes [b] (b.toBytes ++ fill)
  | cons {b c : RelocationBlock} {bs : List RelocationBlock} {fill data : Bytes} :
    fill.length = b.gap → Encodes (c :: bs) data → Encodes (b :: c :: bs) (b.toBytes ++ (fill ++ data))

/-! ### Entries -/

theorem or_shiftLeft_eq (low high : UInt8) :
    low.toUInt16 ||| high.toUInt16 <<< 8 = .ofNat (leValue [low, high]) := by
  have hlow : low.toNat < 2 ^ 8 := low.toNat_lt
  have hhigh : high.toNat < 2 ^ 8 := high.toNat_lt
  have hshift : high.toNat <<< 8 = 256 * high.toNat := by
    rw [Nat.shiftLeft_eq, Nat.mul_comm]
  have hvalue : leValue [low, high] = low.toNat + 256 * high.toNat := rfl
  have hword : leValue [low, high] < UInt16.size := by
    rw [hvalue, show UInt16.size = 2 ^ 16 from rfl]
    omega
  apply UInt16.toNat_inj.mp
  rw [UInt16.toNat_or, UInt16.toNat_shiftLeft, UInt8.toNat_toUInt16, UInt8.toNat_toUInt16,
    UInt16.toNat_ofNat_of_lt' hword, hvalue]
  change low.toNat ||| high.toNat <<< 8 % 2 ^ 16 = _
  rw [Nat.mod_eq_of_lt (by omega), Nat.or_comm, ← Nat.shiftLeft_add_eq_or_of_lt hlow, hshift, Nat.add_comm]

theorem words_append {part : Bytes} (h : part.length = 2) (rest : Bytes) :
    words (part ++ rest) = .ofNat (leValue part) :: words rest := by
  match part, h with
  | [low, high], _ =>
    rw [← or_shiftLeft_eq]
    rfl

theorem words_flatMap_le16 (entries : List UInt16) : words (entries.flatMap le16) = entries := by
  induction entries with
  | nil => rfl
  | cons entry entries ih =>
    have hback : leValue (le16 entry) = entry.toNat :=
      (leValue_leBytes 2 _).trans (Nat.mod_eq_of_lt entry.toNat_lt)
    rw [List.flatMap_cons, words_append (length_le16 entry), ih, hback, UInt16.ofNat_toNat]

theorem length_flatMap_le16 (entries : List UInt16) :
    (entries.flatMap le16).length = 2 * entries.length := by
  induction entries with
  | nil => rfl
  | cons entry entries ih =>
    rw [List.flatMap_cons, List.length_append, ih, length_le16, List.length_cons]
    omega

theorem length_lt_two {bytes : Bytes}
    (h : ∀ (low high : UInt8) (rest : Bytes), bytes = low :: high :: rest → False) : bytes.length < 2 := by
  match bytes, h with
  | [], _ => exact Nat.zero_lt_two
  | [_], _ => exact Nat.one_lt_two
  | low :: high :: rest, h => exact absurd rfl (h low high rest)

theorem length_words (bytes : Bytes) : (words bytes).length = bytes.length / 2 := by
  fun_induction words bytes with
  | case1 low high rest ih =>
    rw [List.length_cons, ih, List.length_cons, List.length_cons]
    omega
  | case2 bytes hshort =>
    have hlength := length_lt_two hshort
    rw [List.length_nil]
    omega

theorem getElem?_words (bytes : Bytes) (i : Nat) : (words bytes)[i]? = bytes.u16? (2 * i) := by
  fun_induction words bytes generalizing i with
  | case1 low high rest ih =>
    cases i with
    | zero =>
      rw [or_shiftLeft_eq, List.getElem?_cons_zero, Bytes.u16?, Bytes.word?_eq, if_pos (by simp)]
      rfl
    | succ i =>
      have hrest : Bytes.u16? ([low, high] ++ rest) (2 * (i + 1)) = Bytes.u16? rest (2 * i) :=
        Bytes.u16?_append_of_le rest (by simp only [List.length_cons, List.length_nil]; omega)
      rw [List.getElem?_cons_succ, ih]
      exact hrest.symm
  | case2 bytes hshort =>
    have hlength := length_lt_two hshort
    rw [List.getElem?_nil, Bytes.u16?, Bytes.word?_eq, if_neg (by omega), Option.map_none]

/-! ### Reading back -/

theorem length_toBytes (b : RelocationBlock) : b.toBytes.length = b.size := by
  rw [toBytes, List.length_append, List.length_append, length_le32, length_le32, length_flatMap_le16, size,
    headerSize]
  omega

theorem stride_eq (b : RelocationBlock) : b.stride = roundUp 4 b.size := by
  rw [stride, roundUp, size, headerSize]
  omega

theorem roundUp_size {offset : Nat} (h : 4 ∣ offset) (b : RelocationBlock) :
    roundUp 4 (offset + headerSize + 2 * b.entries.length) = offset + b.stride := by
  obtain ⟨k, rfl⟩ := h
  rw [roundUp, stride, headerSize]
  omega

theorem size_add_gap (b : RelocationBlock) : b.size + b.gap = b.stride := by
  have hle : b.size ≤ roundUp 4 b.size := le_roundUp (by decide)
  rw [stride_eq, gap]
  omega

theorem read_toBytes {b : RelocationBlock} (h : b.Sized) (rest : Bytes) :
    read (b.toBytes ++ rest) = .ok b := by
  have hsize : (UInt32.ofNat b.size).toNat = b.size := UInt32.toNat_ofNat_of_lt' h
  have hcount : entryCount b.size = b.entries.length := by
    rw [entryCount, size, headerSize]
    omega
  have hpage : Bytes.u32? (b.toBytes ++ rest) 0 = some b.page := by
    rw [toBytes, List.append_assoc, Bytes.u32?_le32]
  have hfield : Bytes.u32? (b.toBytes ++ rest) 4 = some (.ofNat b.size) := by
    rw [toBytes, List.append_assoc, List.append_assoc, Bytes.u32?_append_of_le _ (by simp), length_le32,
      Bytes.u32?_le32]
  have hentries : Bytes.slice? (b.toBytes ++ rest) headerSize (2 * b.entries.length) =
      some (b.entries.flatMap le16) := by
    rw [Bytes.slice?_eq_some_iff]
    refine ⟨le32 b.page ++ le32 (.ofNat b.size), rest, ?_, rfl, length_flatMap_le16 _⟩
    simp only [toBytes, List.append_assoc]
  rw [read, hpage, hfield]
  dsimp only
  rw [hsize, if_neg (by rw [size]; omega), hcount, hentries]
  dsimp only
  rw [words_flatMap_le16]

theorem readAll_of_read {data : Bytes} {b : RelocationBlock} (h : read data = .ok b) (hdata : data ≠ []) :
    readAll data = (readAll (data.drop b.stride)).map (b :: ·) := by
  cases data with
  | nil => exact absurd rfl hdata
  | cons byte rest => rw [readAll, h]

theorem readAll_of_error {data : Bytes} {e : PeError} (h : read data = .error e) (hdata : data ≠ []) :
    readAll data = .error e := by
  cases data with
  | nil => exact absurd rfl hdata
  | cons byte rest => rw [readAll, h]

theorem readAll_toBytes {b : RelocationBlock} (h : b.Sized) (rest : Bytes) :
    readAll (b.toBytes ++ rest) = (readAll (rest.drop b.gap)).map (b :: ·) := by
  have hne : b.toBytes ++ rest ≠ [] := by
    intro hnil
    have hlength := congrArg List.length (List.append_eq_nil_iff.mp hnil).1
    rw [length_toBytes, size, headerSize, List.length_nil] at hlength
    omega
  have hdrop : (b.toBytes ++ rest).drop b.stride = rest.drop b.gap := by
    rw [← size_add_gap, ← length_toBytes, List.drop_append, List.drop_eq_nil_of_le (Nat.le_add_right _ _),
      List.nil_append, Nat.add_sub_cancel_left]
  rw [readAll_of_read (read_toBytes h rest) hne, hdrop]

theorem readAll_of_encodes {blocks : List RelocationBlock} {data : Bytes} (h : Encodes blocks data)
    (hsized : ∀ b ∈ blocks, b.Sized) : readAll data = .ok blocks := by
  induction h with
  | nil => rw [readAll]
  | @last b fill hfill =>
    rw [readAll_toBytes (hsized b List.mem_cons_self), List.drop_eq_nil_of_le hfill, readAll]
    rfl
  | @cons b c bs fill data hfill hrest ih =>
    obtain ⟨hb, hbs⟩ := List.forall_mem_cons.mp hsized
    rw [readAll_toBytes hb, ← hfill, List.drop_left, ih hbs]
    rfl

end PlatformInit.RelocationBlock
