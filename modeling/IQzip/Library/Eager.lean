import IQzip.Library.Coder
import Mathlib.Tactic.Common

/-! # Coders from functions

`eager now all` is the coder that uses all it is offered and produces as early as `now` allows:
after the input `xs` it has produced `now xs`, and a flush completes that to `all xs`. Output that
does not fit in the space of a call is left for the next. -/

namespace IQzip.Library

universe v w

variable {α : Type v} {β : Type w}

/-- The state of an eager coder: what it has been given and how much it has produced. -/
structure Given (α : Type v) where
  used : List α
  count : Nat

/-- The state before any input. -/
def Given.start : Given α := { used := [], count := 0 }

namespace Coder

/-- The coder that produces `now` of its input, and `all` of it when flushed. -/
def eager (now all : List α → List β) : Coder (Given α) α β where
  call s mode xs space :=
    let total := match mode with
      | .noFlush => now (s.used ++ xs)
      | .flush => all (s.used ++ xs)
    let made := (total.drop s.count).take space
    { status := 0
      consumed := xs.length
      produced := made
      next := { used := s.used ++ xs, count := s.count + made.length } }
  consumed_le _ _ xs _ := Nat.le_refl xs.length
  produced_le _ _ _ _ := List.length_take_le ..

section Eager

variable {now all : List α → List β} {m : Nat} {input used : List α} {made : List β} {s : Given α}

/-- The state of an eager coder is its history. -/
theorem eager_reaches (h : (eager now all).Reaches m Given.start input s used made) :
    s.used = used ∧ s.count = made.length := by
  induction h with
  | start => exact ⟨rfl, rfl⟩
  | call _ _ _ _ ih =>
    obtain ⟨rfl, hcount⟩ := ih
    refine ⟨by simp [eager], ?_⟩
    rw [List.length_append, ← hcount]
    rfl

/-- What an eager coder has produced is a part of `now`. -/
theorem eager_sound (mono : ∀ ⦃xs ys⦄, xs <+: ys → now xs <+: now ys)
    (h : (eager now all).Reaches m Given.start input s used made) : made <+: now used := by
  induction h with
  | start => exact List.nil_prefix
  | @call s used made xs hs _ _ _ ih =>
    obtain ⟨rfl, hcount⟩ := eager_reaches hs
    have hgrow : made <+: now (s.used ++ xs) := ih.trans (mono (List.prefix_append ..))
    obtain ⟨t, ht⟩ := hgrow
    have hmade : ((eager now all).call s .noFlush xs m).produced = t.take m := by
      simp [eager, hcount, ← ht]
    have hused : xs.take ((eager now all).call s .noFlush xs m).consumed = xs := by simp [eager]
    rw [hmade, hused, ← ht, List.prefix_append_right_inj]
    exact List.take_prefix ..

/-- **An eager coder is paced**, whole items in and one item of space at least. -/
theorem eager_paced (mono : ∀ ⦃xs ys⦄, xs <+: ys → now xs <+: now ys) :
    (eager now all).Paced m Given.start input 1 1 now where
  mono := mono
  sound _ _ _ h := eager_sound mono h
  stop := by
    intro s used made hs xs _ _ _
    obtain ⟨rfl, hcount⟩ := eager_reaches hs
    obtain ⟨t, ht⟩ := (eager_sound mono hs).trans (mono (List.prefix_append s.used xs))
    have hmade : ((eager now all).call s .noFlush xs m).produced = t.take m := by
      simp [eager, hcount, ← ht]
    have hused : ((eager now all).call s .noFlush xs m).consumed = xs.length := rfl
    rw [hmade, hused, List.take_length, Nat.mod_one, Nat.sub_zero, ← ht]
    -- either everything determined fits in the space, or the space is full
    by_cases hfit : t.length ≤ m
    · exact Or.inl ⟨rfl, by rw [List.take_of_length_le hfit]⟩
    · refine Or.inr ⟨Nat.one_dvd _, ?_⟩
      rw [List.length_take]
      omega

/-- An eager coder never fails. -/
theorem eager_accepts (now all : List α → List β) :
    (eager now all).Accepts m Given.start input := fun _ _ _ _ _ _ _ => rfl

/-- A flush completes what has been produced. -/
theorem eager_flush (hs : (eager now all).Reaches m Given.start input s used made) {xs : List α}
    (hpre : made <+: all (used ++ xs)) (hfit : (all (used ++ xs)).length ≤ made.length + m) :
    made ++ ((eager now all).call s .flush xs m).produced = all (used ++ xs) := by
  obtain ⟨rfl, hcount⟩ := eager_reaches hs
  obtain ⟨t, ht⟩ := hpre
  have hlen : t.length ≤ m := by
    rw [← ht, List.length_append] at hfit
    omega
  have hmade : ((eager now all).call s .flush xs m).produced = t := by
    simp [eager, hcount, ← ht, List.take_of_length_le hlen]
  rw [hmade, ht]

/-- The state of an eager coder at the end of the input. -/
theorem eager_ends (h : (eager now all).Ends m Given.start input s made) :
    s.used = input ∧ s.count = made.length := by
  induction h with
  | used hs => exact eager_reaches hs
  | flush _ ih =>
    obtain ⟨rfl, hcount⟩ := ih
    refine ⟨by simp [eager], ?_⟩
    rw [List.length_append, ← hcount]
    rfl

/-- A flushing call at the end of the input goes on with `all`. -/
theorem eager_ends_produced (h : (eager now all).Ends m Given.start input s made) {rest : List β}
    (hrest : made ++ rest = all input) :
    ((eager now all).call s .flush [] m).produced = rest.take m := by
  obtain ⟨rfl, hcount⟩ := eager_ends h
  simp [eager, hcount, ← hrest]

/-- What an eager coder has produced at the end of the input is a part of `all`. -/
theorem eager_made_prefix (mono : ∀ ⦃xs ys⦄, xs <+: ys → now xs <+: now ys)
    (hall : now input <+: all input) (h : (eager now all).Ends m Given.start input s made) :
    made <+: all input := by
  induction h with
  | used hs => exact (eager_sound mono hs).trans hall
  | flush h ih =>
    obtain ⟨rest, hrest⟩ := ih
    rw [eager_ends_produced h hrest, ← hrest, List.prefix_append_right_inj]
    exact List.take_prefix ..

/-- **An eager coder finishes** with `all` of its input. -/
theorem eager_finishes (mono : ∀ ⦃xs ys⦄, xs <+: ys → now xs <+: now ys)
    (hall : now input <+: all input) :
    (eager now all).Finishes m Given.start input (all input) where
  sound _ _ hs := eager_made_prefix mono hall (.used hs)
  status _ _ _ := rfl
  flush := by
    intro s made h
    obtain ⟨rest, hrest⟩ := eager_made_prefix mono hall h
    rw [eager_ends_produced h hrest, ← hrest, List.take_append,
      List.take_of_length_le (Nat.le_add_right ..), Nat.add_sub_cancel_left]

/-- What an eager coder does with more input, space aside. -/
def eagerFeed (now : List α → List β) (s : Given α) (xs : List α) : Given α × List β :=
  ({ used := s.used ++ xs, count := s.count + ((now (s.used ++ xs)).drop s.count).length },
    (now (s.used ++ xs)).drop s.count)

/-- What an eager coder still has to produce. -/
def eagerFinish (all : List α → List β) (s : Given α) : List β := (all s.used).drop s.count

/-- Cutting off `k` items in two steps. -/
theorem drop_append_drop {xs ys : List β} (h : xs <+: ys) (k : Nat) :
    ys.drop k = xs.drop k ++ ys.drop (k + (xs.drop k).length) := by
  obtain ⟨t, rfl⟩ := h
  rw [List.length_drop, List.drop_append]
  rcases Nat.le_total k xs.length with hk | hk
  · rw [Nat.add_sub_of_le hk, List.drop_left, Nat.sub_eq_zero_of_le hk, List.drop_zero]
  · rw [Nat.sub_eq_zero_of_le hk, Nat.add_zero, List.drop_append, List.drop_eq_nil_of_le hk]
    rfl

/-- **An eager coder feeds**, when its whole output fits in one call. -/
theorem eager_feeds (mono : ∀ ⦃xs ys⦄, xs <+: ys → now xs <+: now ys)
    (hall : ∀ xs, now xs <+: all xs) (hfit : (all input).length ≤ m) :
    (eager now all).Feeds m Given.start input (eagerFeed now) (eagerFinish all) where
  append s xs ys := by
    have hgrow := mono (List.prefix_append (s.used ++ xs) ys)
    have hcut := drop_append_drop hgrow s.count
    simp only [eagerFeed, ← List.append_assoc]
    rw [hcut, List.length_append, Nat.add_assoc]
  call_noFlush := by
    intro s used made hs xs hpre _
    obtain ⟨rfl, -⟩ := eager_reaches hs
    -- no call is short of space, as everything together fits in one
    have hle : ((now (s.used ++ xs)).drop s.count).length ≤ m := by
      have hnow := ((mono hpre).trans (hall input)).length_le
      rw [List.length_drop]
      omega
    simp only [eager, eagerFeed, List.take_of_length_le hle]
  call_flush := by
    intro s used made hs xs hpre _
    obtain ⟨rfl, hcount⟩ := eager_reaches hs
    subst hpre
    have hle : ((all (s.used ++ xs)).drop s.count).length ≤ m := by
      rw [List.length_drop]
      omega
    refine ⟨rfl, ?_⟩
    simp only [eager, eagerFeed, eagerFinish, List.take_of_length_le hle]
    exact drop_append_drop (hall _) s.count

end Eager

end Coder

end IQzip.Library
