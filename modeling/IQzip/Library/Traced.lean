import Mathlib.Algebra.Order.Ring.Nat

/-! # Computations that record what they do

A traced computation returns or fails, and either way leaves the events it met, so that something
can be said about what a failing run did before it failed. Forgetting the events gives the plain
computation back (`result_bind`).

`Traced.Ensures` is a triple for them: every event satisfies an invariant, the events together
stay within a budget, and what is returned satisfies a postcondition. -/

namespace IQzip.Library

universe u v w

variable {ω : Type u} {ε : Type v} {α β : Type w}

/-- A computation with the events it met, in order. -/
structure Traced (ω : Type u) (ε : Type v) (α : Type w) where
  events : List ω
  result : Except ε α

namespace Traced

/-- A computation without events. -/
def ofExcept (result : Except ε α) : Traced ω ε α := ⟨[], result⟩

/-- An event. -/
def emit (e : ω) : Traced ω ε PUnit := ⟨[e], .ok ⟨⟩⟩

/-- One computation after another; a failure ends both. -/
def andThen (t : Traced ω ε α) (f : α → Traced ω ε β) : Traced ω ε β :=
  match t.result with
  | .error e => ⟨t.events, .error e⟩
  | .ok a => ⟨t.events ++ (f a).events, (f a).result⟩

instance : Monad (Traced ω ε) where
  pure a := ofExcept (.ok a)
  bind := andThen

/-! ## The computation without its events -/

/-- A computation without events has the result it is made of. -/
@[simp] theorem result_ofExcept (result : Except ε α) :
    (ofExcept result : Traced ω ε α).result = result := rfl

/-- An event does not fail. -/
@[simp] theorem result_emit (e : ω) : (emit e : Traced ω ε PUnit).result = .ok ⟨⟩ := rfl

/-- A value is its own result. -/
@[simp] theorem result_pure (a : α) : (pure a : Traced ω ε α).result = .ok a := rfl

/-- Results are chained like the computations. -/
@[simp] theorem result_bind (t : Traced ω ε α) (f : α → Traced ω ε β) :
    (t >>= f).result = t.result.bind fun a => (f a).result := by
  change (andThen t f).result = _
  unfold andThen
  cases t.result with
  | error e => rfl
  | ok a => rfl

/-- An event in front of a computation is forgotten. -/
theorem result_emit_bind (e : ω) (t : Traced ω ε β) :
    (emit e >>= fun _ => t).result = t.result := rfl

/-! ## Triples -/

/-- Every event satisfies `inv`, the events cost at most `budget`, and what is returned satisfies
`post`. -/
structure Ensures (inv : ω → Prop) (cost : ω → Nat) (budget : Nat) (t : Traced ω ε α)
    (post : α → Prop) : Prop where
  events : ∀ e ∈ t.events, inv e
  within : (t.events.map cost).sum ≤ budget
  post : ∀ a, t.result = .ok a → post a

section Rules

variable {inv : ω → Prop} {cost : ω → Nat} {budget spent left : Nat} {t : Traced ω ε α}
  {f : α → Traced ω ε β} {pre : α → Prop} {post : β → Prop}

/-- A computation without events keeps every invariant and costs nothing. -/
theorem ensures_ofExcept {result : Except ε α} (h : ∀ a, result = .ok a → pre a) :
    (ofExcept result).Ensures inv cost budget pre where
  events _ he := nomatch he
  within := Nat.zero_le budget
  post := h

/-- So does a value. -/
theorem ensures_pure {a : α} (h : pre a) : (pure a : Traced ω ε α).Ensures inv cost budget pre := by
  refine ensures_ofExcept ?_
  intro a' heq
  exact Except.ok.inj heq ▸ h

/-- **Sequence**: what the first returns is what the second relies on, and the costs add up. -/
theorem Ensures.bind (ht : t.Ensures inv cost spent pre) (hbudget : spent + left ≤ budget)
    (hf : ∀ a, pre a → (f a).Ensures inv cost left post) :
    (t >>= f).Ensures inv cost budget post := by
  change (andThen t f).Ensures inv cost budget post
  unfold andThen
  cases hresult : t.result with
  | error e =>
    -- the rest is not reached
    exact
      { events := ht.events
        within := Nat.le_trans ht.within (Nat.le_trans (Nat.le_add_right spent left) hbudget)
        post := fun _ h => nomatch h }
  | ok a =>
    have hnext := hf a (ht.post a hresult)
    exact
      { events := by
          intro e he
          rcases List.mem_append.mp he with hfirst | hsecond
          · exact ht.events e hfirst
          · exact hnext.events e hsecond
        within := by
          rw [List.map_append, List.sum_append]
          exact Nat.le_trans (Nat.add_le_add ht.within hnext.within) hbudget
        post := hnext.post }

/-- An event, then the rest. -/
theorem ensures_emit_bind {e : ω} {u : Traced ω ε β} (he : inv e)
    (hbudget : cost e + left ≤ budget) (hu : u.Ensures inv cost left post) :
    (emit e >>= fun _ => u).Ensures inv cost budget post where
  events e' he' := by
    rcases List.mem_cons.mp he' with hfirst | hrest
    · exact hfirst ▸ he
    · exact hu.events e' hrest
  within := by
    change ((e :: u.events).map cost).sum ≤ budget
    rw [List.map_cons, List.sum_cons]
    exact Nat.le_trans (Nat.add_le_add_left hu.within (cost e)) hbudget
  post := hu.post

/-- A first part that costs nothing leaves the whole budget. -/
theorem Ensures.bind_free (ht : t.Ensures inv cost 0 pre)
    (hf : ∀ a, pre a → (f a).Ensures inv cost budget post) :
    (t >>= f).Ensures inv cost budget post :=
  ht.bind (Nat.le_of_eq (Nat.zero_add budget)) hf

/-- So does an event that costs nothing. -/
theorem ensures_emit_bind_free {e : ω} {u : Traced ω ε β} (he : inv e) (hfree : cost e = 0)
    (hu : u.Ensures inv cost budget post) :
    (emit e >>= fun _ => u).Ensures inv cost budget post :=
  ensures_emit_bind he (Nat.le_of_eq (by rw [hfree, Nat.zero_add])) hu

end Rules

end Traced

end IQzip.Library
