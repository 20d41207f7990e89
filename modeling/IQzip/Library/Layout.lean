import Mathlib.Algebra.Order.Group.Abs
import Mathlib.Algebra.Order.Group.Int
import Mathlib.Data.Nat.ModEq
import Mathlib.Data.List.OfFn
import Mathlib.Tactic.Common

/-! # Layouts of packed records

A packed record is a string of bits cut into fields of fixed widths. A layout says, field by field
and most significant bit first, which word each field holds; `render` writes a record out. A layout
tells two records apart exactly when one of its fields does: `Layout.render_eq_iff`. -/

namespace IQzip.Library

universe u

variable {α : Type u}

/-- The bits of a word, the most significant first. -/
def wordBits {w : Nat} (x : BitVec w) : List Bool := List.ofFn fun i : Fin w => x.getMsbD i

/-- A word of `w` bits has `w` of them. -/
@[simp] theorem length_wordBits {w : Nat} (x : BitVec w) : (wordBits x).length = w :=
  List.length_ofFn

/-- The bits stand most significant first. -/
@[simp] theorem getElem_wordBits {w : Nat} (x : BitVec w) (i : Nat)
    (hi : i < (wordBits x).length) : (wordBits x)[i] = x.getMsbD i := by
  simp [wordBits]

/-- A word is its bits. -/
theorem wordBits_injective {w : Nat} : Function.Injective (wordBits (w := w)) := by
  intro x y h
  apply BitVec.eq_of_getMsbD_eq
  intro i hi
  have hbit := congrFun (List.ofFn_injective h) ⟨i, hi⟩
  exact hbit

/-- A field of a record: so many bits, read off the record. -/
structure Field (α : Type u) where
  /-- The number of bits. -/
  width : Nat
  /-- What the field holds. -/
  read : α → BitVec width

/-- A layout is a list of fields. -/
abbrev Layout (α : Type u) := List (Field α)

namespace Layout

/-- The bits of a record. -/
def render (l : Layout α) (a : α) : List Bool := l.flatMap fun f => wordBits (f.read a)

/-- No fields, no bits. -/
@[simp] theorem render_nil (a : α) : render [] a = [] := rfl

/-- The bits of a field stand in front of those of the fields behind it. -/
@[simp] theorem render_cons (f : Field α) (l : Layout α) (a : α) :
    render (f :: l) a = wordBits (f.read a) ++ render l a := rfl

/-- Tables one after the other. -/
theorem render_append (l l' : Layout α) (a : α) :
    render (l ++ l') a = render l a ++ render l' a :=
  List.flatMap_append

/-- **A layout tells two records apart exactly when one of its fields does.** -/
theorem render_eq_iff (l : Layout α) (a b : α) :
    l.render a = l.render b ↔ ∀ f ∈ l, f.read a = f.read b := by
  induction l with
  | nil => simp
  | cons f l ih =>
    rw [render_cons, render_cons, List.forall_mem_cons, ← ih]
    constructor
    · intro h
      obtain ⟨hfield, hrest⟩ := List.append_inj h (by simp)
      exact ⟨wordBits_injective hfield, hrest⟩
    · rintro ⟨hfield, hrest⟩
      rw [hfield, hrest]

end Layout

/-- A remainder modulo a power of two is the low bits. -/
theorem umod_eq_setWidth {w k : Nat} (x m : BitVec w) (hk : k < w) (hm : m.toNat = 2 ^ k) :
    x % m = (x.setWidth k).setWidth w := by
  apply BitVec.eq_of_toNat_eq
  have hlt : x.toNat % 2 ^ k < 2 ^ w :=
    (Nat.mod_lt _ (Nat.two_pow_pos k)).trans (Nat.pow_lt_pow_right (by decide) hk)
  rw [BitVec.toNat_umod, hm, BitVec.toNat_setWidth, BitVec.toNat_setWidth, Nat.mod_eq_of_lt hlt]

/-- A field of `k` bits tells apart the words of any window of length `2 ^ k`. -/
theorem eq_of_setWidth_eq {w k lo : Nat} {x y : BitVec w}
    (hx : lo ≤ x.toNat ∧ x.toNat < lo + 2 ^ k) (hy : lo ≤ y.toNat ∧ y.toNat < lo + 2 ^ k)
    (h : x.setWidth k = y.setWidth k) : x = y := by
  apply BitVec.eq_of_toNat_eq
  have hmod : x.toNat ≡ y.toNat [MOD 2 ^ k] := by
    have hnat := congrArg BitVec.toNat h
    rwa [BitVec.toNat_setWidth, BitVec.toNat_setWidth] at hnat
  apply hmod.eq_of_abs_lt
  rw [abs_sub_lt_iff]
  generalize 2 ^ k = m at hx hy
  omega

/-- A field of `k` bits tells apart the words that fit. -/
theorem eq_of_setWidth_of_lt {w k : Nat} {x y : BitVec w} (hx : x.toNat < 2 ^ k)
    (hy : y.toNat < 2 ^ k) (h : x.setWidth k = y.setWidth k) : x = y :=
  eq_of_setWidth_eq ⟨Nat.zero_le _, by omega⟩ ⟨Nat.zero_le _, by omega⟩ h

/-- The bits of a run of bytes. -/
def byteBits (bytes : List (BitVec 8)) : List Bool := bytes.flatMap wordBits

/-- No bytes, no bits. -/
@[simp] theorem byteBits_nil : byteBits [] = [] := rfl

/-- The bits of a byte stand in front of those of the bytes behind it. -/
@[simp] theorem byteBits_cons (b : BitVec 8) (bytes : List (BitVec 8)) :
    byteBits (b :: bytes) = wordBits b ++ byteBits bytes := rfl

/-- Byte strings one after the other. -/
theorem byteBits_append (bytes bytes' : List (BitVec 8)) :
    byteBits (bytes ++ bytes') = byteBits bytes ++ byteBits bytes' :=
  List.flatMap_append

/-- Bytes are told apart by their bits. -/
theorem byteBits_injective : Function.Injective byteBits := by
  intro xs
  induction xs with
  | nil =>
    intro ys h
    cases ys with
    | nil => rfl
    | cons y ys =>
      have hlen := congrArg List.length h
      simp only [byteBits_nil, byteBits_cons, List.length_nil, List.length_append,
        length_wordBits] at hlen
      omega
  | cons x xs ih =>
    intro ys h
    cases ys with
    | nil =>
      have hlen := congrArg List.length h
      simp only [byteBits_nil, byteBits_cons, List.length_nil, List.length_append,
        length_wordBits] at hlen
      omega
    | cons y ys =>
      rw [byteBits_cons, byteBits_cons] at h
      obtain ⟨hbyte, hrest⟩ := List.append_inj h (by simp)
      rw [wordBits_injective hbyte, ih hrest]

end IQzip.Library
