import Mathlib.Tactic.Common

/-! # The last write wins

A value read from a state after a sequence of writes is the one the last of them left there, and the
old one when none of them wrote it. Which writes reach the value, and with what, is a partial
function on them. -/

namespace IQzip.Library

universe u v w x

variable {α : Type u} {β : Type v} {γ : Type w}

/-- The value of the last element that has one. -/
def lastSome (f : α → Option γ) : List α → Option γ
  | [] => none
  | a :: as => (lastSome f as).or (f a)

section LastSome

variable {f : α → Option γ} {as : List α} {c : γ}

/-- No writes, no last one. -/
@[simp] theorem lastSome_nil (f : α → Option γ) : lastSome f [] = none := rfl

/-- A later write counts before an earlier one. -/
theorem lastSome_cons (f : α → Option γ) (a : α) (as : List α) :
    lastSome f (a :: as) = (lastSome f as).or (f a) := rfl

/-- The value is that of an element. -/
theorem exists_mem_of_lastSome (h : lastSome f as = some c) : ∃ a ∈ as, f a = some c := by
  induction as with
  | nil => cases h
  | cons a as ih =>
    rw [lastSome_cons] at h
    cases hlast : lastSome f as with
    | none =>
      rw [hlast, Option.none_or] at h
      exact ⟨a, List.mem_cons_self, h⟩
    | some d =>
      rw [hlast, Option.some_or] at h
      obtain ⟨a', hmem, ha'⟩ := ih (hlast.trans h)
      exact ⟨a', List.mem_cons_of_mem a hmem, ha'⟩

/-- No element has a value exactly when there is no last one. -/
theorem lastSome_eq_none_iff : lastSome f as = none ↔ ∀ a ∈ as, f a = none := by
  induction as with
  | nil => simp
  | cons a as ih =>
    rw [lastSome_cons, Option.or_eq_none_iff, ih, List.forall_mem_cons, and_comm]

/-- Functions that agree on the elements have the same last value. -/
theorem lastSome_congr {g : α → Option γ} (h : ∀ a ∈ as, f a = g a) :
    lastSome f as = lastSome g as := by
  induction as with
  | nil => rfl
  | cons a as ih =>
    rw [List.forall_mem_cons] at h
    rw [lastSome_cons, lastSome_cons, h.1, ih h.2]

/-- The last value of a function of the values. -/
theorem lastSome_map {δ : Type x} (g : γ → δ) (f : α → Option γ) (as : List α) :
    lastSome (fun a => (f a).map g) as = (lastSome f as).map g := by
  induction as with
  | nil => rfl
  | cons a as ih =>
    rw [lastSome_cons, lastSome_cons, ih]
    cases lastSome f as <;> simp

/-- An element that has the value has it wherever it is. -/
theorem lastSome_ite [DecidableEq α] (a : α) (c : γ) (as : List α) :
    lastSome (fun b => if b = a then some c else none) as = if a ∈ as then some c else none := by
  induction as with
  | nil => rfl
  | cons b as ih =>
    rw [lastSome_cons, ih]
    by_cases hmem : a ∈ as
    · simp [hmem]
    · by_cases hb : b = a
      · simp [hb, hmem]
      · simp [hb, hmem, Ne.symm hb]

end LastSome

/-- **The last write wins.** When every write of a sequence leaves the value that is read, or puts
its own there, the sequence leaves the one its last writer put. -/
theorem read_foldl {write : β → α → β} {read : β → γ} {put : α → Option γ} {as : List α}
    (h : ∀ a ∈ as, ∀ b, read (write b a) = (put a).getD (read b)) (b : β) :
    read (as.foldl write b) = (lastSome put as).getD (read b) := by
  -- on the writes, from whatever state they start
  induction as generalizing b with
  | nil => rfl
  | cons a as ih =>
    rw [List.forall_mem_cons] at h
    rw [List.foldl_cons, ih h.2, h.1, lastSome_cons]
    cases lastSome put as <;> simp

/-- A value that one element sets and no other touches says whether it is there. -/
theorem read_foldl_mem [DecidableEq α] {write : β → α → β} {read : β → γ} {a : α} {c : γ}
    (h : ∀ b x, read (write b x) = if x = a then c else read b) (as : List α) (b : β) :
    read (as.foldl write b) = if a ∈ as then c else read b := by
  have hput : ∀ x ∈ as, ∀ b, read (write b x)
      = (if x = a then some c else none : Option γ).getD (read b) := by
    intro x _ b
    rw [h]
    by_cases hx : x = a <;> simp [hx]
  rw [read_foldl hput, lastSome_ite]
  by_cases hmem : a ∈ as <;> simp [hmem]

end IQzip.Library
