import Mathlib.Algebra.Ring.Nat
import Mathlib.Tactic.Common

/-! # Masked writes

What packed setters do to a word: some of its bits are kept, the others are cleared, and then bits
are set with OR. An assignment keeps nothing, `|=` keeps everything. Two questions are answered bit
by bit: when a second write leaves no trace of a first one (`apply_apply_eq_iff`), and when a write
is not seen through a mask (`and_apply_of_staysIn`). -/

namespace IQzip.Library

variable {w : Nat}

/-- Every bit of `a` is a bit of `b`. -/
def Within (a b : BitVec w) : Prop := a &&& ~~~b = 0#w

instance (a b : BitVec w) : Decidable (Within a b) := inferInstanceAs (Decidable (_ = _))

/-- Inclusion of words, bit by bit. -/
theorem within_iff {a b : BitVec w} :
    Within a b ↔ ∀ i < w, a.getLsbD i = true → b.getLsbD i = true := by
  rw [Within, BitVec.eq_of_getLsbD_eq_iff]
  refine forall₂_congr ?_
  intro i hi
  simp only [BitVec.getLsbD_and, BitVec.getLsbD_not, BitVec.getLsbD_zero, hi, decide_true,
    Bool.true_and]
  cases a.getLsbD i <;> cases b.getLsbD i <;> simp

/-- No bits are within any. -/
@[simp] theorem within_zero (b : BitVec w) : Within 0#w b := BitVec.zero_and

/-- Any bits are within all. -/
theorem within_allOnes (a : BitVec w) : Within a (BitVec.allOnes w) := by
  simp [Within]

/-- A masked word lies in its mask. -/
theorem within_and (a b : BitVec w) : Within (a &&& b) b := by
  rw [within_iff]
  intro i _ h
  rw [BitVec.getLsbD_and, Bool.and_eq_true] at h
  exact h.2

/-- Within is transitive. -/
theorem Within.trans {a b c : BitVec w} (hab : Within a b) (hbc : Within b c) : Within a c := by
  rw [within_iff] at hab hbc ⊢
  intro i hi ha
  exact hbc i hi (hab i hi ha)

/-- Two sets of bits are within a third when each is. -/
theorem within_or_iff {a b c : BitVec w} : Within (a ||| b) c ↔ Within a c ∧ Within b c := by
  simp only [within_iff, BitVec.getLsbD_or, Bool.or_eq_true]
  constructor
  · intro h
    exact ⟨fun i hi ha => h i hi (Or.inl ha), fun i hi hb => h i hi (Or.inr hb)⟩
  · rintro ⟨ha, hb⟩ i hi (h | h)
    · exact ha i hi h
    · exact hb i hi h

/-- A word whose bits lie in `a` has none outside. -/
theorem Within.and_eq_zero {a b c : BitVec w} (h : Within a b) (hbc : b &&& c = 0#w) :
    a &&& c = 0#w := by
  rw [within_iff] at h
  rw [BitVec.eq_of_getLsbD_eq_iff] at hbc ⊢
  intro i hi
  have hbit := hbc i hi
  rw [BitVec.getLsbD_and, BitVec.getLsbD_zero] at hbit ⊢
  cases ha : a.getLsbD i
  · rfl
  · rw [h i hi ha] at hbit
    exact hbit

/-- A write to one word: the bits that are kept, and the bits that are set after the others are
cleared. -/
structure MaskedWrite (w : Nat) where
  keep : BitVec w
  bits : BitVec w

namespace MaskedWrite

/-- The word after the write. -/
def apply (m : MaskedWrite w) (b : BitVec w) : BitVec w := b &&& m.keep ||| m.bits

/-- The write that leaves the word alone. -/
def idle : MaskedWrite w := ⟨BitVec.allOnes w, 0#w⟩

/-- `b = v`. -/
def assign (v : BitVec w) : MaskedWrite w := ⟨0#w, v⟩

/-- `b |= v`. -/
def mark (v : BitVec w) : MaskedWrite w := ⟨BitVec.allOnes w, v⟩

/-- An idle write changes nothing. -/
@[simp] theorem apply_idle (b : BitVec w) : (idle : MaskedWrite w).apply b = b := by
  simp [apply, idle]

/-- An assignment leaves its value. -/
@[simp] theorem apply_assign (v b : BitVec w) : (assign v).apply b = v := by
  simp [apply, assign]

/-- A mark sets its bits. -/
@[simp] theorem apply_mark (v b : BitVec w) : (mark v).apply b = b ||| v := by
  simp [apply, mark]

/-- The bits that stay when the same places are written again: those set where nothing is
cleared. -/
def lasting (m : MaskedWrite w) : BitVec w := m.bits &&& m.keep

/-- An idle write leaves no bit set for good. -/
@[simp] theorem lasting_idle : (idle : MaskedWrite w).lasting = 0#w := BitVec.zero_and

/-- Nor does an assignment. -/
@[simp] theorem lasting_assign (v : BitVec w) : (assign v).lasting = 0#w := BitVec.and_zero

/-- **No trace of a first write.** Of two writes that keep the same bits the first is not seen
behind the second exactly when each of its lasting bits was set before or is set by the second. -/
theorem apply_apply_eq_iff {m n : MaskedWrite w} (hkeep : m.keep = n.keep) (b : BitVec w) :
    n.apply (m.apply b) = n.apply b ↔ Within m.lasting (b ||| n.lasting) := by
  rw [within_iff, BitVec.eq_of_getLsbD_eq_iff]
  refine forall₂_congr ?_
  intro i _
  simp only [apply, lasting, BitVec.getLsbD_or, BitVec.getLsbD_and, hkeep]
  -- one bit of each word: sixteen cases
  cases b.getLsbD i <;> cases n.keep.getLsbD i <;> cases m.bits.getLsbD i <;>
    cases n.bits.getLsbD i <;> simp

/-- The write clears and sets bits of `mask` only. -/
structure StaysIn (m : MaskedWrite w) (mask : BitVec w) : Prop where
  bits : Within m.bits mask
  cleared : Within (~~~m.keep) mask

/-- A write that keeps everything stays where its bits are. -/
theorem staysIn_mark {v mask : BitVec w} (h : Within v mask) : (mark v).StaysIn mask :=
  ⟨h, by simp [mark]⟩

/-- An idle write stays in any mask. -/
theorem staysIn_idle (mask : BitVec w) : (idle : MaskedWrite w).StaysIn mask :=
  staysIn_mark (within_zero mask)

/-- An assignment reaches the whole word and no further. -/
theorem staysIn_assign (v : BitVec w) : (assign v).StaysIn (BitVec.allOnes w) :=
  ⟨within_allOnes _, within_allOnes _⟩

/-- **Frame.** What a write does inside one mask is not seen through a mask without common bits. -/
theorem and_apply_of_staysIn {m : MaskedWrite w} {mask other : BitVec w} (h : m.StaysIn mask)
    (hdisjoint : mask &&& other = 0#w) (b : BitVec w) : m.apply b &&& other = b &&& other := by
  have hbits := h.bits.and_eq_zero hdisjoint
  have hcleared := h.cleared.and_eq_zero hdisjoint
  rw [BitVec.eq_of_getLsbD_eq_iff] at hbits hcleared ⊢
  intro i hi
  have hset := hbits i hi
  have hkept := hcleared i hi
  simp only [apply, BitVec.getLsbD_and, BitVec.getLsbD_or, BitVec.getLsbD_not,
    BitVec.getLsbD_zero, hi, decide_true, Bool.true_and] at hset hkept ⊢
  revert hset hkept
  cases other.getLsbD i <;> cases m.keep.getLsbD i <;> cases m.bits.getLsbD i <;> simp

/-- A marked word looks the same through a mask exactly when no bit seen there is new. -/
theorem and_apply_mark_iff (v b other : BitVec w) :
    (mark v).apply b &&& other = b &&& other ↔ Within (v &&& other) b := by
  rw [within_iff, BitVec.eq_of_getLsbD_eq_iff]
  refine forall₂_congr ?_
  intro i _
  simp only [apply_mark, BitVec.getLsbD_or, BitVec.getLsbD_and]
  cases b.getLsbD i <;> cases v.getLsbD i <;> cases other.getLsbD i <;> simp

end MaskedWrite

/-! ## Writes to an array of words -/

/-- A write to each word of an array. -/
abbrev ArrayWrite (ι : Type) (w : Nat) := ι → MaskedWrite w

namespace ArrayWrite

variable {ι : Type} [DecidableEq ι]

/-- A write to one word of the array. -/
def single (i : ι) (m : MaskedWrite w) : ArrayWrite ι w :=
  fun j => if i = j then m else .idle

/-- A write to two words of the array. -/
def pair (i : ι) (m : MaskedWrite w) (j : ι) (n : MaskedWrite w) : ArrayWrite ι w :=
  fun k => if j = k then n else single i m k

end ArrayWrite

/-- Bits of each word of an array. -/
abbrev ArrayMask (ι : Type) (w : Nat) := ι → BitVec w

namespace ArrayMask

variable {ι : Type} [DecidableEq ι]

/-- Bits of one word. -/
def single (i : ι) (m : BitVec w) : ArrayMask ι w := fun j => if i = j then m else 0#w

/-- Bits of two words. -/
def pair (i : ι) (m : BitVec w) (j : ι) (n : BitVec w) : ArrayMask ι w :=
  fun k => if j = k then n else single i m k

end ArrayMask

namespace ArrayWrite

variable {ι : Type} [DecidableEq ι] {i j : ι} {m n : MaskedWrite w} {a b : BitVec w}

/-- An assignment leaves nothing that a second one does not overwrite. -/
theorem lasting_single_assign (v : BitVec w) (k : ι) :
    (single i (.assign v) k).lasting = 0#w := by
  unfold single
  split_ifs
  · exact MaskedWrite.lasting_assign v
  · exact MaskedWrite.lasting_idle

/-- Writes that keep the same bits of one word keep the same bits of the array. -/
theorem keep_single (h : m.keep = n.keep) (k : ι) :
    (single i m k).keep = (single i n k).keep := by
  unfold single
  split_ifs
  · exact h
  · rfl

/-- Two writes keep what others keep when each does. -/
theorem keep_pair {m' n' : MaskedWrite w} (h : m.keep = n.keep) (h' : m'.keep = n'.keep) (k : ι) :
    (pair i m j m' k).keep = (pair i n j n' k).keep := by
  unfold pair
  split_ifs
  · exact h'
  · exact keep_single h k

/-- A write to one byte stays in a mask of that byte. -/
theorem staysIn_single (hm : m.StaysIn a) (k : ι) :
    (single i m k).StaysIn (ArrayMask.single i a k) := by
  unfold single ArrayMask.single
  split_ifs
  · exact hm
  · exact MaskedWrite.staysIn_idle _

/-- A write to one word, then an assignment to another. -/
theorem apply_pair_assign (i j k : ι) (m : MaskedWrite w) (v b : BitVec w) :
    (pair i m j (.assign v) k).apply b
      = (single j (.assign v) k).apply ((single i m k).apply b) := by
  by_cases hj : j = k
  · rw [pair, if_pos hj, single, if_pos hj, MaskedWrite.apply_assign, MaskedWrite.apply_assign]
  · rw [pair, if_neg hj, single, single, if_neg hj, MaskedWrite.apply_idle]

/-- Writes to two bytes stay in masks of these. -/
theorem staysIn_pair (hm : m.StaysIn a) (hn : n.StaysIn b) (k : ι) :
    (pair i m j n k).StaysIn (ArrayMask.pair i a j b k) := by
  unfold pair ArrayMask.pair
  split_ifs
  · exact hn
  · exact staysIn_single hm k

end ArrayWrite

end IQzip.Library
