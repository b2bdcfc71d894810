import Mathlib
import PlatformInit.Cache.Mtrr

/-!
The split of a range into pieces for the variable-range registers.

Pages in, pages out: a range of whole pages is tiled by powers of two of at least a page, each of
which begins at a multiple of its size.
-/
set_option autoImplicit false
namespace PlatformInit.Mtrr

theorem lowBit_eq_two_pow {n : Nat} (h : n ≠ 0) : ∃ k, lowBit n = 2 ^ k := by
  induction n using Nat.strongRecOn with
  | ind n ih =>
    rw [lowBit, if_neg h]
    split
    · exact ⟨0, rfl⟩
    · obtain ⟨k, hk⟩ := ih (n / 2) (by omega) (by omega)
      exact ⟨k + 1, by rw [hk, Nat.pow_succ, Nat.mul_comm]⟩

theorem lowBit_dvd (n : Nat) : lowBit n ∣ n := by
  induction n using Nat.strongRecOn with
  | ind n ih =>
    rw [lowBit]
    split
    · subst n
      exact Nat.dvd_zero 0
    · split
      · exact Nat.one_dvd n
      · have half : 2 * (n / 2) = n := by omega
        conv => rhs; rw [← half]
        exact Nat.mul_dvd_mul_left 2 (ih (n / 2) (by omega))

theorem two_pow_dvd_lowBit {k n : Nat} (h : n ≠ 0) (hk : 2 ^ k ∣ n) : 2 ^ k ∣ lowBit n := by
  induction k generalizing n with
  | zero => exact Nat.one_dvd _
  | succ k ih =>
    obtain ⟨m, rfl⟩ := hk
    have double : 2 ^ (k + 1) * m = 2 * (2 ^ k * m) := by
      rw [Nat.pow_succ, Nat.mul_comm (2 ^ k), Nat.mul_assoc]
    rw [lowBit, if_neg h, if_neg (by omega), double, Nat.mul_div_cancel_left _ (by omega),
      Nat.pow_succ, Nat.mul_comm]
    exact Nat.mul_dvd_mul_left 2 (ih (by omega) (Nat.dvd_mul_right _ m))

/-- A piece of at least a page whose size is a power of two that divides its base. -/
def Natural (piece : Nat × Nat) : Prop := ∃ k, 12 ≤ k ∧ piece.2 = 2 ^ k ∧ 2 ^ k ∣ piece.1

theorem two_pow_le_log2 {k n : Nat} (h : n ≠ 0) (hk : 2 ^ k ∣ n) : k ≤ n.log2 :=
  (Nat.le_log2 h).mpr (Nat.le_of_dvd (Nat.pos_of_ne_zero h) hk)

theorem natural_piece {base length : Nat} (hlength : length ≠ 0) (hb : 2 ^ 12 ∣ base)
    (hl : 2 ^ 12 ∣ length) : Natural (base, pieceSize base length) := by
  have hlog : 12 ≤ length.log2 := two_pow_le_log2 hlength hl
  unfold Natural pieceSize
  rw [Nat.one_shiftLeft]
  split
  · rename_i hzero
    exact ⟨length.log2, hlog, rfl, hzero ▸ Nat.dvd_zero _⟩
  · rename_i hbase
    obtain ⟨j, hj⟩ := lowBit_eq_two_pow hbase
    have hdvd := lowBit_dvd base
    have hmax := two_pow_dvd_lowBit hbase hb
    rw [hj] at hdvd hmax
    have hj12 : 12 ≤ j := (Nat.pow_dvd_pow_iff_le_right (by omega)).mp hmax
    refine ⟨min j length.log2, by omega, ?_, ?_⟩
    · rw [hj]
      rcases Nat.le_total j length.log2 with h | h
      · rw [Nat.min_eq_left h, Nat.min_eq_left (Nat.pow_le_pow_right (by omega) h)]
      · rw [Nat.min_eq_right h, Nat.min_eq_right (Nat.pow_le_pow_right (by omega) h)]
    · exact Nat.dvd_trans (Nat.pow_dvd_pow 2 (Nat.min_le_left j length.log2)) hdvd

theorem pages_behind_piece {base length : Nat} (hlength : length ≠ 0) (hb : 2 ^ 12 ∣ base)
    (hl : 2 ^ 12 ∣ length) :
    2 ^ 12 ∣ base + pieceSize base length ∧ 2 ^ 12 ∣ length - pieceSize base length := by
  obtain ⟨k, hk, hsize, _⟩ := natural_piece hlength hb hl
  have hpage : 2 ^ 12 ∣ pieceSize base length := by
    rw [show pieceSize base length = 2 ^ k from hsize]
    exact Nat.pow_dvd_pow 2 hk
  exact ⟨Nat.dvd_add hb hpage, Nat.dvd_sub hl hpage⟩

theorem pieces_of_ne_zero {base length : Nat} (h : length ≠ 0) :
    pieces base length = (base, pieceSize base length) ::
      pieces (base + pieceSize base length) (length - pieceSize base length) := by
  rw [pieces, if_neg h]

theorem natural_of_mem_pieces {base length : Nat} {piece : Nat × Nat} (hb : 2 ^ 12 ∣ base)
    (hl : 2 ^ 12 ∣ length) (h : piece ∈ pieces base length) : Natural piece := by
  induction base, length using pieces.induct with
  | case1 base => simp [pieces] at h
  | case2 base length hlength ih =>
    rw [pieces_of_ne_zero hlength, List.mem_cons] at h
    obtain ⟨hb', hl'⟩ := pages_behind_piece hlength hb hl
    rcases h with rfl | h
    · exact natural_piece hlength hb hl
    · exact ih hb' hl' h

theorem mem_piece_iff {base length a : Nat} :
    (∃ piece ∈ pieces base length, piece.1 ≤ a ∧ a < piece.1 + piece.2) ↔
      base ≤ a ∧ a < base + length := by
  induction base, length using pieces.induct with
  | case1 base =>
    simp only [pieces, ↓reduceIte, List.not_mem_nil, false_and, exists_false, false_iff]
    omega
  | case2 base length hlength ih =>
    have hle : pieceSize base length ≤ length := pieceSize_le hlength
    rw [pieces_of_ne_zero hlength]
    simp only [List.mem_cons, exists_eq_or_imp, ih]
    omega

theorem piece_le_stop {base length : Nat} {piece : Nat × Nat} (h : piece ∈ pieces base length)
    (hpos : 0 < piece.2) : base ≤ piece.1 ∧ piece.1 + piece.2 ≤ base + length := by
  have first := mem_piece_iff.mp ⟨piece, h, Nat.le_refl piece.1, by omega⟩
  have last := mem_piece_iff.mp ⟨piece, h, (by omega : piece.1 ≤ piece.1 + piece.2 - 1),
    by omega⟩
  omega

theorem pos_of_mem_pieces {base length : Nat} {piece : Nat × Nat} (h : piece ∈ pieces base length) :
    0 < piece.2 := by
  induction base, length using pieces.induct with
  | case1 base => simp [pieces] at h
  | case2 base length hlength ih =>
    rw [pieces_of_ne_zero hlength, List.mem_cons] at h
    rcases h with rfl | h
    · exact pieceSize_pos base length
    · exact ih h

theorem pieces_ascending (base length : Nat) :
    (pieces base length).Pairwise fun p q => p.1 + p.2 ≤ q.1 := by
  induction base, length using pieces.induct with
  | case1 base => simp [pieces]
  | case2 base length hlength ih =>
    rw [pieces_of_ne_zero hlength, List.pairwise_cons]
    refine ⟨fun q hq => ?_, ih⟩
    exact (piece_le_stop hq (pos_of_mem_pieces hq)).1

end PlatformInit.Mtrr
