import Mathlib.Tactic.Common

/-! # Exceptions that are built and dropped

A statement that constructs an exception object without throwing it has no effect on the run, so a
function of the final value alone cannot tell it from no statement at all. A `Dropping` computation
can throw like any other, and it also keeps a list of the objects it built and let go. -/

namespace IQzip.Library

/-- A computation that may throw an `ε`, beside the list of the objects it dropped. -/
abbrev Dropping (ε : Type) := StateT (List ε) (Except ε)

namespace Dropping

variable {ε α β : Type}

/-- The statement that builds `e` and lets it go. -/
def drop (e : ε) : Dropping ε Unit := modify (· ++ [e])

/-- `f` on a value that passes the test. For one that does not, `e` is dropped and the computation
goes on with what it had. -/
def guarded (valid : Prop) [Decidable valid] (e : ε) (f : α → α) (a : α) : Dropping ε α :=
  if valid then pure (f a)
  else do
    drop e
    pure a

/-- The objects a `guarded` step drops. -/
def dropped (valid : Prop) [Decidable valid] (e : ε) : List ε := if valid then [] else [e]

/-- A step drops nothing exactly when its test passes. -/
@[simp] theorem dropped_eq_nil_iff (valid : Prop) [Decidable valid] (e : ε) :
    dropped valid e = [] ↔ valid := by
  unfold dropped
  split <;> simp_all

/-- `m` throws nothing: it returns `a` and drops `es`. -/
def Yields (m : Dropping ε α) (a : α) (es : List ε) : Prop :=
  ∀ log, m.run log = .ok (a, log ++ es)

namespace Yields

variable {m : Dropping ε α} {a : α} {es : List ε}

/-- A value drops nothing. -/
theorem pure (a : α) : Yields (ε := ε) (Pure.pure a) a [] := by
  intro log
  rw [List.append_nil]
  rfl

/-- Two steps drop what the first drops and then what the second drops. -/
theorem bind {f : α → Dropping ε β} {b : β} {es' : List ε} (hm : Yields m a es)
    (hf : Yields (f a) b es') : Yields (m >>= f) b (es ++ es') := by
  intro log
  rw [StateT.run_bind, hm log, ← List.append_assoc]
  exact hf (log ++ es)

/-- A last step without an error branch drops nothing. -/
theorem map (hm : Yields m a es) (f : α → β) :
    Yields (m >>= fun x => Pure.pure (f x)) (f a) es := by
  have hlast := hm.bind (f := fun x => Pure.pure (f x)) (Yields.pure (f a))
  rwa [List.append_nil] at hlast

/-- A guarded step yields what `f` makes of the value, whether or not its test passes, if `f` leaves
alone a value that does not pass. -/
theorem guarded {valid : Prop} [Decidable valid] {e : ε} {f : α → α} {a b : α} (hf : f a = b)
    (h : ¬ valid → b = a) : Yields (guarded valid e f a) b (dropped valid e) := by
  intro log
  unfold Dropping.guarded dropped
  by_cases hv : valid
  · rw [if_pos hv, if_pos hv, List.append_nil, hf]
    rfl
  · rw [if_neg hv, if_neg hv, h hv]
    rfl

/-- A computation that yields does not throw. -/
theorem ne_error (hm : Yields m a es) (e : ε) : m.run [] ≠ .error e := by
  rw [hm []]
  intro h
  cases h

end Yields

end Dropping

end IQzip.Library
