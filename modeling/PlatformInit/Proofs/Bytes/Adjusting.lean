import PlatformInit.Proofs.Bytes.Overwriting

/-!
Adding a number to words of a byte string, each in an extent of its own.

Words that have no byte in common are adjusted independently, so that `numberAt_foldl_adjusted` says what
becomes of each and `agree_foldl_adjusted` that nothing else changes. Two adjustments add up, by
`foldl_adjusted_foldl`.
-/
set_option autoImplicit false
namespace PlatformInit

theorem leBytes_congr {width n m : Nat} (h : n % 1 <<< (8 * width) = m % 1 <<< (8 * width)) :
    leBytes width n = leBytes width m := by
  have hn := leBytes_leValue (leBytes width n)
  have hm := leBytes_leValue (leBytes width m)
  rw [length_leBytes, leValue_leBytes] at hn hm
  rw [← hn, ← hm, h]

namespace Bytes

/-- The bytes after the word in an extent was adjusted; a carry is dropped. -/
def adjusted (adjustment : UInt64) (bytes : Bytes) (e : Extent) : Bytes :=
  bytes.overwrite e.offset (leBytes e.length (bytes.numberAt e.length e.offset + adjustment.toNat))

section
variable {a b : UInt64} {bytes : Bytes} {e f : Extent}

theorem length_adjusted (h : e.Within bytes.length) : (bytes.adjusted a e).length = bytes.length :=
  length_overwrite (by rw [length_leBytes]; exact h)

theorem agree_adjusted (h : e.Within bytes.length) (hapart : f.Apart e) :
    Agree f (bytes.adjusted a e) bytes := by
  refine agree_overwrite (by rw [length_leBytes]; exact h) ?_
  rwa [length_leBytes]

theorem numberAt_adjusted (h : e.Within bytes.length) :
    (bytes.adjusted a e).numberAt e.length e.offset =
      (bytes.numberAt e.length e.offset + a.toNat) % 1 <<< (8 * e.length) :=
  numberAt_overwrite h _

theorem adjusted_zero (h : e.Within bytes.length) : bytes.adjusted 0 e = bytes := overwrite_numberAt h

theorem adjusted_adjusted (h : e.Within bytes.length) (hwidth : e.length ≤ 8) :
    (bytes.adjusted a e).adjusted b e = bytes.adjusted (a + b) e := by
  have hdvd : 1 <<< (8 * e.length) ∣ 2 ^ 64 := by
    rw [Nat.one_shiftLeft]
    exact Nat.pow_dvd_pow 2 (by omega)
  -- The second carry is dropped at 64 bits already, which the word cannot tell.
  have hsum : ((bytes.numberAt e.length e.offset + a.toNat) % 1 <<< (8 * e.length) + b.toNat) %
      1 <<< (8 * e.length) =
      (bytes.numberAt e.length e.offset + (a + b).toNat) % 1 <<< (8 * e.length) := by
    rw [Nat.mod_add_mod, Nat.add_assoc, UInt64.toNat_add, ← Nat.add_mod_mod _ (a.toNat + b.toNat),
      ← Nat.add_mod_mod _ ((a.toNat + b.toNat) % 2 ^ 64), Nat.mod_mod_of_dvd _ hdvd]
  rw [adjusted, numberAt_adjusted h, leBytes_congr hsum, adjusted,
    overwrite_overwrite (by rw [length_leBytes]; exact h) (by rw [length_leBytes, length_leBytes]),
    adjusted]

theorem adjusted_overwrite {part : Bytes} {offset : Nat} (h : e.Within bytes.length)
    (hfits : offset + part.length ≤ bytes.length) (hapart : e.Apart ⟨offset, part.length⟩) :
    (bytes.overwrite offset part).adjusted a e = (bytes.adjusted a e).overwrite offset part := by
  rw [adjusted, numberAt_congr (agree_overwrite hfits hapart), adjusted]
  refine overwrite_comm hfits (by rw [length_leBytes]; exact h) ?_
  rw [length_leBytes]
  exact hapart.symm

theorem adjusted_comm (he : e.Within bytes.length) (hf : f.Within bytes.length) (hapart : e.Apart f) :
    (bytes.adjusted b f).adjusted a e = (bytes.adjusted a e).adjusted b f := by
  have hsame := numberAt_congr (agree_adjusted (a := a) he hapart.symm)
  rw [adjusted.eq_1 b bytes f, adjusted_overwrite he (by rw [length_leBytes]; exact hf)
    (by rw [length_leBytes]; exact hapart), adjusted.eq_1 b _ f, hsame]

end

section
variable {a : UInt64} {bytes bytes' : Bytes} {offset : Nat}

theorem u64?_of_word? (h : bytes'.word? 8 offset =
    (bytes.word? 8 offset).map fun n => (n + a.toNat) % 1 <<< (8 * 8)) :
    bytes'.u64? offset = (bytes.u64? offset).map (· + a) := by
  rw [u64?, h, u64?, Option.map_map, Option.map_map]
  congr 1
  funext n
  apply UInt64.toNat_inj.mp
  change (UInt64.ofNat ((n + a.toNat) % 2 ^ 64)).toNat = (UInt64.ofNat n + a).toNat
  rw [UInt64.toNat_ofNat', UInt64.toNat_add, UInt64.toNat_ofNat', Nat.mod_mod, Nat.mod_add_mod]

theorem u32?_of_word? (h : bytes'.word? 4 offset =
    (bytes.word? 4 offset).map fun n => (n + a.toNat) % 1 <<< (8 * 4)) :
    bytes'.u32? offset = (bytes.u32? offset).map (· + a.toUInt32) := by
  rw [u32?, h, u32?, Option.map_map, Option.map_map]
  congr 1
  funext n
  apply UInt32.toNat_inj.mp
  change (UInt32.ofNat ((n + a.toNat) % 2 ^ 32)).toNat = (UInt32.ofNat n + a.toUInt32).toNat
  rw [UInt32.toNat_ofNat', UInt32.toNat_add, UInt32.toNat_ofNat', UInt64.toNat_toUInt32, Nat.mod_mod,
    Nat.add_mod]

end

section
variable {a b : UInt64} {bytes : Bytes} {es : List Extent}

theorem length_foldl_adjusted (h : ∀ e ∈ es, e.Within bytes.length) :
    (es.foldl (adjusted a) bytes).length = bytes.length := by
  induction es generalizing bytes with
  | nil => rfl
  | cons e es ih =>
    obtain ⟨he, hes⟩ := List.forall_mem_cons.mp h
    have hlength := length_adjusted (a := a) he
    rw [List.foldl_cons, ih (by rwa [hlength]), hlength]

theorem agree_foldl_adjusted {f : Extent} (h : ∀ e ∈ es, e.Within bytes.length)
    (hapart : ∀ e ∈ es, f.Apart e) : Agree f (es.foldl (adjusted a) bytes) bytes := by
  induction es generalizing bytes with
  | nil => exact fun _ _ => rfl
  | cons e es ih =>
    obtain ⟨he, hes⟩ := List.forall_mem_cons.mp h
    obtain ⟨hfe, hfes⟩ := List.forall_mem_cons.mp hapart
    intro i hi
    rw [List.foldl_cons, ih (by rwa [length_adjusted he]) hfes i hi, agree_adjusted he hfe i hi]

theorem numberAt_foldl_adjusted {e : Extent} (h : ∀ e ∈ es, e.Within bytes.length)
    (hapart : es.Pairwise Extent.Apart) (he : e ∈ es) :
    (es.foldl (adjusted a) bytes).numberAt e.length e.offset =
      (bytes.numberAt e.length e.offset + a.toNat) % 1 <<< (8 * e.length) := by
  induction es generalizing bytes with
  | nil => exact absurd he List.not_mem_nil
  | cons f es ih =>
    obtain ⟨hf, hes⟩ := List.forall_mem_cons.mp h
    obtain ⟨hfirst, hrest⟩ := List.pairwise_cons.mp hapart
    have hes' : ∀ e ∈ es, e.Within (bytes.adjusted a f).length := by rwa [length_adjusted hf]
    rw [List.foldl_cons]
    rcases List.mem_cons.mp he with rfl | hmem
    · rw [numberAt_congr (agree_foldl_adjusted hes' hfirst), numberAt_adjusted hf]
    · rw [ih hes' hrest hmem, numberAt_congr (agree_adjusted hf (hfirst e hmem).symm)]

theorem word?_foldl_adjusted {e : Extent} (h : ∀ e ∈ es, e.Within bytes.length)
    (hapart : es.Pairwise Extent.Apart) (he : e ∈ es) :
    (es.foldl (adjusted a) bytes).word? e.length e.offset =
      (bytes.word? e.length e.offset).map fun n => (n + a.toNat) % 1 <<< (8 * e.length) := by
  have hfits : e.offset + e.length ≤ bytes.length := h e he
  rw [word?_eq, word?_eq, length_foldl_adjusted h, if_pos hfits, if_pos hfits,
    numberAt_foldl_adjusted h hapart he, Option.map_some]

theorem foldl_adjusted_zero (h : ∀ e ∈ es, e.Within bytes.length) : es.foldl (adjusted 0) bytes = bytes := by
  induction es with
  | nil => rfl
  | cons e es ih =>
    obtain ⟨he, hes⟩ := List.forall_mem_cons.mp h
    rw [List.foldl_cons, adjusted_zero he, ih hes]

theorem foldl_adjusted_exchange {n : Nat} {g : Bytes → Bytes} (hlength : bytes.length = n)
    (h : ∀ e ∈ es, e.Within n)
    (hg : ∀ e ∈ es, ∀ bytes : Bytes, bytes.length = n → (g bytes).adjusted a e = g (bytes.adjusted a e)) :
    es.foldl (adjusted a) (g bytes) = g (es.foldl (adjusted a) bytes) := by
  induction es generalizing bytes with
  | nil => rfl
  | cons e es ih =>
    obtain ⟨he, hes⟩ := List.forall_mem_cons.mp h
    obtain ⟨hge, hges⟩ := List.forall_mem_cons.mp hg
    rw [List.foldl_cons, hge bytes hlength, List.foldl_cons]
    exact ih ((length_adjusted (hlength ▸ he)).trans hlength) hes hges

theorem foldl_adjusted_overwrite {part : Bytes} {offset : Nat} (h : ∀ e ∈ es, e.Within bytes.length)
    (hfits : offset + part.length ≤ bytes.length) (hapart : ∀ e ∈ es, e.Apart ⟨offset, part.length⟩) :
    es.foldl (adjusted a) (bytes.overwrite offset part) =
      (es.foldl (adjusted a) bytes).overwrite offset part :=
  foldl_adjusted_exchange (g := fun bytes => bytes.overwrite offset part) rfl h
    fun e he _ hlength => adjusted_overwrite (hlength ▸ h e he) (hlength ▸ hfits) (hapart e he)

theorem foldl_adjusted_foldl (h : ∀ e ∈ es, e.Within bytes.length) (hwidth : ∀ e ∈ es, e.length ≤ 8)
    (hapart : es.Pairwise Extent.Apart) :
    es.foldl (adjusted b) (es.foldl (adjusted a) bytes) = es.foldl (adjusted (a + b)) bytes := by
  induction es generalizing bytes with
  | nil => rfl
  | cons e es ih =>
    obtain ⟨he, hes⟩ := List.forall_mem_cons.mp h
    obtain ⟨hwe, hwes⟩ := List.forall_mem_cons.mp hwidth
    obtain ⟨hfirst, hrest⟩ := List.pairwise_cons.mp hapart
    have hlength := length_adjusted (a := a) he
    have hexchange : es.foldl (adjusted a) ((bytes.adjusted a e).adjusted b e) =
        (es.foldl (adjusted a) (bytes.adjusted a e)).adjusted b e :=
      foldl_adjusted_exchange (g := fun bytes => bytes.adjusted b e) hlength hes
        fun f hf _ hsize => adjusted_comm (hsize ▸ hes f hf) (hsize ▸ he) (hfirst f hf).symm
    rw [List.foldl_cons, List.foldl_cons, List.foldl_cons, ← hexchange, adjusted_adjusted he hwe,
      ih (by rwa [length_adjusted he]) hwes hrest]

end
end Bytes
end PlatformInit
