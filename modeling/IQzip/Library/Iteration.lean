import Mathlib.Logic.Relation
import Mathlib.Tactic.Common

/-! # Loops as iterated steps

A loop body is a function `α → α ⊕ β`: go on with a new state, or leave with a result. `iterate`
runs it with fuel, `Loops` and `Exits` say what it does without fuel, and the rules below carry an
invariant, a measure or a simulation through a whole run. -/

namespace IQzip.Library

universe u v w x

variable {α : Type u} {β : Type v} {α' : Type w} {β' : Type x}

/-- Run a loop body until it leaves, with fuel. -/
def iterate (step : α → α ⊕ β) : Nat → α → Option β
  | 0, _ => none
  | fuel + 1, a =>
    match step a with
    | .inl a' => iterate step fuel a'
    | .inr b => some b

/-- One turn of the loop that does not leave it. -/
def Turns (step : α → α ⊕ β) (a a' : α) : Prop := step a = .inl a'

/-- The states at the head of the loop in a run from `a`. -/
abbrev Loops (step : α → α ⊕ β) : α → α → Prop := Relation.ReflTransGen (Turns step)

/-- The loop leaves with `b`. -/
def Exits (step : α → α ⊕ β) (a : α) (b : β) : Prop := ∃ a', Loops step a a' ∧ step a' = .inr b

/-- A function with fuel returns `b`: it does with all fuel from some amount on. -/
def Returns (f : Nat → Option β) (b : β) : Prop := ∃ n, ∀ fuel ≥ n, f fuel = some b

/-- A function returns one value only. -/
theorem Returns.unique {f : Nat → Option β} {b c : β} (hb : Returns f b) (hc : Returns f c) :
    b = c := by
  obtain ⟨n, hn⟩ := hb
  obtain ⟨m, hm⟩ := hc
  have hsame := (hn (max n m) (Nat.le_max_left ..)).symm.trans (hm (max n m) (Nat.le_max_right ..))
  exact Option.some.inj hsame

/-- What a function with fuel returns, it returns with more fuel. -/
def FuelMono (f : Nat → Option β) : Prop :=
  ∀ ⦃fuel more b⦄, f fuel = some b → fuel ≤ more → f more = some b

/-- One amount of fuel is then enough. -/
theorem FuelMono.returns {f : Nat → Option β} (hf : FuelMono f) {fuel : Nat} {b : β}
    (h : f fuel = some b) : Returns f b := ⟨fuel, fun _ hle => hf h hle⟩

/-- A function of the result is as monotone. -/
theorem FuelMono.map {f : Nat → Option α} (hf : FuelMono f) (g : α → β) :
    FuelMono fun fuel => (f fuel).map g := by
  intro fuel more b h hle
  obtain ⟨a, ha, rfl⟩ := Option.map_eq_some_iff.mp h
  exact Option.map_eq_some_iff.mpr ⟨a, hf ha hle, rfl⟩

/-- What a function of the result returns. -/
theorem FuelMono.returns_map_iff {f : Nat → Option α} (hf : FuelMono f) {g : α → β} {b : β} :
    Returns (fun fuel => (f fuel).map g) b ↔ ∃ a, Returns f a ∧ g a = b := by
  constructor
  · rintro ⟨n, hn⟩
    obtain ⟨a, ha, hb⟩ := Option.map_eq_some_iff.mp (hn n (Nat.le_refl n))
    exact ⟨a, hf.returns ha, hb⟩
  · rintro ⟨a, ⟨n, hn⟩, rfl⟩
    exact ⟨n, fun fuel hle => congrArg (Option.map g) (hn fuel hle)⟩

/-- An error passes through a function of the result that makes none of its own. -/
theorem FuelMono.returns_error_iff {ε : Type u} {f : Nat → Option (Except ε α)} (hf : FuelMono f)
    {g : Except ε α → Except ε β} (hpass : ∀ e, g (.error e) = .error e)
    (hmake : ∀ a e, Returns f (.ok a) → g (.ok a) ≠ .error e) {e : ε} :
    Returns (fun fuel => (f fuel).map g) (.error e) ↔ Returns f (.error e) := by
  rw [hf.returns_map_iff]
  constructor
  · rintro ⟨result, hresult, heq⟩
    cases result with
    | error e' =>
      rw [hpass] at heq
      cases heq
      exact hresult
    | ok a => exact absurd heq (hmake a e hresult)
  · intro h
    exact ⟨.error e, h, hpass e⟩

/-- A function returns what another one does, up to what is seen of it. -/
theorem FuelMono.returns_of_map_eq {f : Nat → Option α} {f' : Nat → Option α'} {g : α → β}
    {g' : α' → β} (hf : FuelMono f') (hsame : ∀ fuel, (f fuel).map g = (f' fuel).map g') {a : α}
    (h : Returns f a) : ∃ a', Returns f' a' ∧ g' a' = g a := by
  obtain ⟨n, hn⟩ := h
  have hmapped := hsame n
  rw [hn n (Nat.le_refl n), Option.map_some] at hmapped
  obtain ⟨a', ha', heq⟩ := Option.map_eq_some_iff.mp hmapped.symm
  exact ⟨a', hf.returns ha', heq⟩

section Run

variable {step : α → α ⊕ β} {a a' : α} {b : β}

/-- A turn in front of an exit. -/
theorem Exits.turn (h : step a = .inl a') (hexit : Exits step a' b) : Exits step a b := by
  obtain ⟨last, hloops, hlast⟩ := hexit
  exact ⟨last, .head h hloops, hlast⟩

/-- An exit at the first turn. -/
theorem Exits.now (h : step a = .inr b) : Exits step a b := ⟨a, .refl, h⟩

/-- What fuel finds is an exit. -/
theorem exits_of_iterate {fuel : Nat} (h : iterate step fuel a = some b) : Exits step a b := by
  induction fuel generalizing a with
  | zero => cases h
  | succ fuel ih =>
    rw [iterate] at h
    cases hstep : step a with
    | inl a' =>
      rw [hstep] at h
      exact (ih h).turn hstep
    | inr b' =>
      rw [hstep] at h
      cases h
      exact .now hstep

/-- Fuel left over changes nothing. -/
theorem iterate_mono {fuel more : Nat} (h : iterate step fuel a = some b) (hle : fuel ≤ more) :
    iterate step more a = some b := by
  induction fuel generalizing a more with
  | zero => cases h
  | succ fuel ih =>
    -- both amounts are positive, so both runs make the same first turn
    obtain ⟨more, rfl⟩ : ∃ m, more = m + 1 := ⟨more - 1, by omega⟩
    rw [iterate] at h ⊢
    cases hstep : step a with
    | inl a' =>
      rw [hstep] at h
      exact ih h (by omega)
    | inr b' =>
      rw [hstep] at h
      exact h

/-- More fuel changes nothing for an iteration that ends. -/
theorem iterate_fuelMono (step : α → α ⊕ β) (a : α) :
    FuelMono fun fuel => iterate step fuel a := fun _ _ _ h hle => iterate_mono h hle

/-- **Every exit is found, and with every larger fuel.** -/
theorem Exits.returns (h : Exits step a b) : Returns (fun fuel => iterate step fuel a) b := by
  obtain ⟨last, hloops, hlast⟩ := h
  suffices ∃ n, iterate step n a = some b by
    obtain ⟨n, hn⟩ := this
    exact ⟨n, fun fuel hle => iterate_mono hn hle⟩
  -- from the exit backwards: each turn in front costs one unit of fuel
  induction hloops using Relation.ReflTransGen.head_induction_on with
  | refl => exact ⟨1, by rw [iterate, hlast]⟩
  | head hturn _ ih =>
    obtain ⟨n, hn⟩ := ih
    exact ⟨n + 1, by rw [iterate, show step _ = .inl _ from hturn]; exact hn⟩

/-- What a loop returns is what it leaves with. -/
theorem returns_iterate_iff : Returns (fun fuel => iterate step fuel a) b ↔ Exits step a b :=
  ⟨fun ⟨n, hn⟩ => exits_of_iterate (hn n (Nat.le_refl n)), Exits.returns⟩

/-- A loop leaves with one result only. -/
theorem Exits.unique {c : β} (hb : Exits step a b) (hc : Exits step a c) : b = c :=
  hb.returns.unique hc.returns

/-- **Invariant rule**: what every turn preserves holds at every head of the loop. -/
theorem Loops.invariant (inv : α → Prop) (hturn : ∀ a a', inv a → step a = .inl a' → inv a')
    (h : Loops step a a') (ha : inv a) : inv a' := by
  induction h with
  | refl => exact ha
  | tail _ hstep ih => exact hturn _ _ ih hstep

/-- **Partial correctness**: an invariant, and what it gives at the exit. -/
theorem Exits.post (inv : α → Prop) (post : β → Prop)
    (hturn : ∀ a a', inv a → step a = .inl a' → inv a')
    (hexit : ∀ a b, inv a → step a = .inr b → post b) (h : Exits step a b) (ha : inv a) :
    post b := by
  obtain ⟨last, hloops, hlast⟩ := h
  exact hexit _ _ (Loops.invariant inv hturn hloops ha) hlast

/-- **Total correctness**: an invariant and a measure that every turn makes smaller. -/
theorem exists_exits (inv : α → Prop) (post : β → Prop) (measure : α → Nat)
    (hstep : ∀ a, inv a → (∃ a', step a = .inl a' ∧ inv a' ∧ measure a' < measure a)
      ∨ ∃ b, step a = .inr b ∧ post b) (ha : inv a) : ∃ b, Exits step a b ∧ post b := by
  -- on the measure of the state at the head
  induction hn : measure a using Nat.strongRecOn generalizing a with
  | ind n ih =>
    rcases hstep a ha with ⟨a', hturn, ha', hlt⟩ | ⟨b, hexit, hb⟩
    · obtain ⟨b, hb, hpost⟩ := ih (measure a') (by omega) ha' rfl
      exact ⟨b, hb.turn hturn, hpost⟩
    · exact ⟨b, .now hexit, hb⟩

/-- **Divergence**: an invariant under which every turn goes on. -/
theorem not_exits (inv : α → Prop) (hstep : ∀ a, inv a → ∃ a', step a = .inl a' ∧ inv a')
    (ha : inv a) : ¬ Exits step a b := by
  -- no exit is possible where the invariant holds, so its postcondition is false
  intro h
  refine h.post inv (fun _ => False) ?_ ?_ ha
  · intro c c' hc hturn
    obtain ⟨d, hd, hinv⟩ := hstep c hc
    rw [hturn] at hd
    cases hd
    exact hinv
  · intro c d hc hexit
    obtain ⟨e, he, -⟩ := hstep c hc
    rw [hexit] at he
    cases he

end Run

/-! ## Simulation -/

section Simulation

variable {step : α → α ⊕ β} {step' : α' → α' ⊕ β'} (rel : α → α' → Prop) {a : α} {a' : α'}

/-- **Simulation rule.** When every turn of one loop is matched by a turn of the other, so is every
run of turns. -/
theorem Loops.simulate
    (hturn : ∀ a a' c', rel a a' → step' a' = .inl c' → ∃ c, step a = .inl c ∧ rel c c')
    {b' : α'} (h : Loops step' a' b') (ha : rel a a') : ∃ b, Loops step a b ∧ rel b b' := by
  induction h with
  | refl => exact ⟨a, .refl, ha⟩
  | tail _ hstep ih =>
    obtain ⟨b, hloops, hrel⟩ := ih
    obtain ⟨c, hc, hrel'⟩ := hturn _ _ _ hrel hstep
    exact ⟨c, hloops.tail hc, hrel'⟩

end Simulation

/-- **Mapping rule.** A map that takes every turn of one loop to a turn of the other takes what fuel
finds of the one to what it finds of the other. -/
theorem iterate_map {step : α → α ⊕ β} {step' : α' → α' ⊕ β'} (f : α → α') (g : β → β')
    (inv : α → Prop) (hturn : ∀ a a', inv a → step a = .inl a' → inv a')
    (hstep : ∀ a, inv a → step' (f a) = (step a).map f g) {a : α} (ha : inv a) (fuel : Nat) :
    iterate step' fuel (f a) = (iterate step fuel a).map g := by
  induction fuel generalizing a with
  | zero => rfl
  | succ fuel ih =>
    rw [iterate, iterate, hstep a ha]
    cases hnext : step a with
    | inl a' => exact ih (hturn a a' ha hnext)
    | inr b => rfl

end IQzip.Library
