import Mathlib.Algebra.Ring.Nat
import Mathlib.Tactic.Common

/-! # Bit fields of a word

A field is a run of `width` bits that starts at bit `shift`. Packed formats read a field with a
mask and a right shift, and write one by OR-ing a shifted value into the word. Everything proved
here follows from one fact, `getLsbD_get`: bit `i` of the value read is bit `shift + i` of the
word. -/

/-- A run of `width` bits starting at bit `shift` of a `w`-bit word. -/
structure BitField (w : Nat) where
  /-- The position of the lowest bit. -/
  shift : Nat
  /-- The number of bits. -/
  width : Nat
  /-- The field lies inside the word. -/
  fits : shift + width ≤ w

namespace BitField

variable {w : Nat}

/-- The word whose set bits are exactly the bits of the field. -/
def mask (f : BitField w) : BitVec w := BitVec.ofNat w ((2 ^ f.width - 1) <<< f.shift)

/-- Read the field: mask, then shift down. -/
def get (f : BitField w) (b : BitVec w) : BitVec w := (b &&& f.mask) >>> f.shift

/-- The word that holds `v` in the field and zeros elsewhere. -/
def place (f : BitField w) (v : BitVec w) : BitVec w := (v <<< f.shift) &&& f.mask

/-- Two fields of one word share no bit. -/
def Disjoint (f g : BitField w) : Prop := f.shift + f.width ≤ g.shift ∨ g.shift + g.width ≤ f.shift

instance (f g : BitField w) : Decidable (f.Disjoint g) := inferInstanceAs (Decidable (_ ∨ _))

/-- The mask has exactly the bits of the field. -/
theorem getLsbD_mask (f : BitField w) (i : Nat) :
    f.mask.getLsbD i = (decide (f.shift ≤ i) && decide (i < f.shift + f.width)) := by
  rw [mask, BitVec.getLsbD_ofNat, Nat.testBit_shiftLeft, Nat.testBit_two_pow_sub_one]
  have hfits := f.fits
  by_cases hlo : f.shift ≤ i
  · by_cases hhi : i < f.shift + f.width
    · have hi : i < w := by omega
      have hd : i - f.shift < f.width := by omega
      simp [hlo, hhi, hi, hd]
    · have hd : ¬ i - f.shift < f.width := by omega
      simp [hhi, hd]
  · simp [hlo]

/-- **A field is read bit by bit.** Bit `i` of the value is bit `shift + i` of the word. -/
theorem getLsbD_get (f : BitField w) (b : BitVec w) (i : Nat) :
    (f.get b).getLsbD i = (decide (i < f.width) && b.getLsbD (f.shift + i)) := by
  rw [get, BitVec.getLsbD_ushiftRight, BitVec.getLsbD_and, getLsbD_mask, Bool.and_comm]
  congr 1
  simp

/-- Bit `i` of a placed value is bit `i - shift` of the value, inside the field only. -/
theorem getLsbD_place (f : BitField w) (v : BitVec w) (i : Nat) :
    (f.place v).getLsbD i
      = (decide (f.shift ≤ i) && decide (i < f.shift + f.width) && v.getLsbD (i - f.shift)) := by
  rw [place, BitVec.getLsbD_and, getLsbD_mask, BitVec.getLsbD_shiftLeft]
  have hfits := f.fits
  by_cases hlo : f.shift ≤ i
  · by_cases hhi : i < f.shift + f.width
    · have hi : i < w := by omega
      simp [hlo, hhi, hi]
    · simp [hhi]
  · simp [hlo]

/-- Two words read alike through a field exactly when they agree on its bits. -/
theorem get_eq_get_iff (f : BitField w) (a b : BitVec w) :
    f.get a = f.get b ↔ a &&& f.mask = b &&& f.mask := by
  constructor
  · intro h
    apply BitVec.eq_of_getLsbD_eq
    intro i _
    rw [BitVec.getLsbD_and, BitVec.getLsbD_and, getLsbD_mask]
    by_cases hin : f.shift ≤ i ∧ i < f.shift + f.width
    · -- bit `i` is bit `i - shift` of what is read
      have hbit := congrArg (fun x => x.getLsbD (i - f.shift)) h
      have hi : i - f.shift < f.width := by omega
      simp only [getLsbD_get, hi, decide_true, Bool.true_and, Nat.add_sub_cancel' hin.1] at hbit
      rw [hbit]
    · have hout : (decide (f.shift ≤ i) && decide (i < f.shift + f.width)) = false := by
        simpa using fun h => Nat.le_of_not_lt fun h' => hin ⟨h, h'⟩
      rw [hout, Bool.and_false, Bool.and_false]
  · intro h
    rw [get, get, h]

/-- A value is placed by cutting it to the width of the field and shifting it up. -/
theorem place_eq_shiftLeft (f : BitField w) (v : BitVec w) :
    f.place v = (v &&& BitVec.ofNat w (2 ^ f.width - 1)) <<< f.shift := by
  apply BitVec.eq_of_getLsbD_eq
  intro i hi
  rw [getLsbD_place, BitVec.getLsbD_shiftLeft, BitVec.getLsbD_and, BitVec.getLsbD_ofNat,
    Nat.testBit_two_pow_sub_one]
  by_cases hlo : f.shift ≤ i
  · have hw : i - f.shift < w := by omega
    have hiff : i < f.shift + f.width ↔ i - f.shift < f.width := by omega
    simp [hlo, hi, hw, hiff, Bool.and_comm]
  · simp [hlo]

/-- A value that fits is placed by the shift alone. -/
theorem place_of_lt (f : BitField w) {v : BitVec w} (hv : v.toNat < 2 ^ f.width) :
    f.place v = v <<< f.shift := by
  have hcut : v &&& BitVec.ofNat w (2 ^ f.width - 1) = v := by
    apply BitVec.eq_of_toNat_eq
    have hpow : 2 ^ f.width ≤ 2 ^ w := Nat.pow_le_pow_right (by decide) (by have := f.fits; omega)
    rw [BitVec.toNat_and, BitVec.toNat_ofNat, Nat.mod_eq_of_lt (by omega),
      Nat.and_two_pow_sub_one_eq_mod, Nat.mod_eq_of_lt hv]
  rw [place_eq_shiftLeft, hcut]

/-- Reading distributes over OR, the operation packed setters write with. -/
@[simp] theorem get_or (f : BitField w) (a b : BitVec w) :
    f.get (a ||| b) = f.get a ||| f.get b := by
  apply BitVec.eq_of_getLsbD_eq
  intro i _
  simp only [getLsbD_get, BitVec.getLsbD_or, Bool.and_or_distrib_left]

/-- A value that fits the field is read back unchanged. -/
theorem get_place (f : BitField w) {v : BitVec w} (hv : v.toNat < 2 ^ f.width) :
    f.get (f.place v) = v := by
  apply BitVec.eq_of_getLsbD_eq
  intro i _
  rw [getLsbD_get, getLsbD_place]
  by_cases hi : i < f.width
  · have hhi : f.shift + i < f.shift + f.width := by omega
    simp [hi]
  · -- above the field the value has no bit, because it fits
    have hlt : v.toNat < 2 ^ i :=
      Nat.lt_of_lt_of_le hv (Nat.pow_le_pow_right (by decide) (by omega))
    have hzero : v.getLsbD i = false := Nat.testBit_lt_two_pow hlt
    simp [hi, hzero]

/-- Writing one field leaves a disjoint field untouched. -/
theorem get_place_of_disjoint {f g : BitField w} (hfg : f.Disjoint g) (v : BitVec w) :
    f.get (g.place v) = 0 := by
  apply BitVec.eq_of_getLsbD_eq
  intro i _
  rw [getLsbD_get, getLsbD_place]
  by_cases hi : i < f.width
  · -- bit `i` of one field is outside the other
    have hout : ¬ (g.shift ≤ f.shift + i ∧ f.shift + i < g.shift + g.width) := by
      rcases hfg with h | h <;> omega
    by_cases hlo : g.shift ≤ f.shift + i
    · have hhi : ¬ f.shift + i < g.shift + g.width := fun h => hout ⟨hlo, h⟩
      simp [hhi]
    · simp [hlo]
  · simp [hi]

end BitField

/-- **A word is put together again from two parts**: its low `k` bits, and what is above them. -/
theorem BitVec.or_parts {w k m : Nat} (x : BitVec w) (hw : w ≤ k + m) :
    (x.setWidth k).setWidth w ||| ((x >>> k).setWidth m).setWidth w <<< k = x := by
  apply BitVec.eq_of_getLsbD_eq
  intro i hi
  rw [BitVec.getLsbD_or, BitVec.getLsbD_setWidth, BitVec.getLsbD_setWidth,
    BitVec.getLsbD_shiftLeft, BitVec.getLsbD_setWidth, BitVec.getLsbD_setWidth,
    BitVec.getLsbD_ushiftRight]
  by_cases h : i < k
  · simp [h, hi]
  · have hd : i - k < m := by omega
    have hdw : i - k < w := by omega
    have hs : k + (i - k) = i := by omega
    simp [h, hi, hd, hdw, hs]

/-- Two words are the same with the bits of `m` set exactly when they agree on the other bits. -/
theorem BitVec.or_eq_or_iff {w : Nat} (a b m : BitVec w) :
    a ||| m = b ||| m ↔ a &&& ~~~m = b &&& ~~~m := by
  simp only [BitVec.eq_of_getLsbD_eq_iff, BitVec.getLsbD_or, BitVec.getLsbD_and,
    BitVec.getLsbD_not]
  refine forall₂_congr fun i hi => ?_
  cases m.getLsbD i <;> simp [hi]
