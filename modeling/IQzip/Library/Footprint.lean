import Mathlib.Data.Set.Lattice
import Mathlib.Logic.Function.Basic
import Mathlib.Order.CompletePartialOrder
import Mathlib.Tactic.Common

/-! # Operations on parts of a store

A store has cells; `graft P s t` is `t` with the cells `P` of `s`. An operation is `Local` to the
cells it reads and the cells it writes when it does the same on every store that has those cells,
and leaves the rest as it was.

Objects that share a store and keep to cells that no other object writes do not see each other:
`run_iff` says that a run of their calls, interleaved in any order, comes out as the calls of each
object alone do. -/

namespace IQzip.Library

universe u v w x y z

/-- A store with cells `κ` that hold values `ν`. -/
class Store (S : Type u) (κ : outParam (Type v)) (ν : outParam (Type w)) where
  cell : S → κ → ν
  graft : Set κ → S → S → S
  cell_graft_of_mem : ∀ {P : Set κ} {s t : S} {k : κ}, k ∈ P → cell (graft P s t) k = cell s k
  cell_graft_of_notMem : ∀ {P : Set κ} {s t : S} {k : κ}, k ∉ P → cell (graft P s t) k = cell t k
  ext : ∀ {s t : S}, (∀ k, cell s k = cell t k) → s = t

namespace Store

variable {S : Type u} {κ : Type v} {ν : Type w} [Store S κ ν] {P Q : Set κ} {s t : S} {k : κ}

/-- Two stores hold the same in the cells `P`. -/
def Agree (P : Set κ) (s t : S) : Prop := ∀ ⦃k⦄, k ∈ P → cell s k = cell t k

/-- Agreement on a set of cells is reflexive. -/
theorem Agree.refl (P : Set κ) (s : S) : Agree P s s := fun _ _ => rfl

/-- It is symmetric. -/
theorem Agree.symm (h : Agree P s t) : Agree P t s := fun _ hk => (h hk).symm

/-- It is transitive. -/
theorem Agree.trans {r : S} (h : Agree P s t) (h' : Agree P t r) : Agree P s r :=
  fun _ hk => (h hk).trans (h' hk)

/-- A graft agrees with the store its cells come from. -/
theorem agree_graft (P : Set κ) (s t : S) : Agree P (graft P s t) s :=
  fun _ hk => cell_graft_of_mem hk

/-- Grafting cells that are the same already changes nothing. -/
theorem graft_of_agree (h : Agree P s t) : graft P s t = t := by
  apply ext
  intro k
  by_cases hk : k ∈ P
  · rw [cell_graft_of_mem hk, h hk]
  · rw [cell_graft_of_notMem hk]

end Store

open Store

/-! ## Local operations -/

/-- The operation reads the cells `R` only and changes only the cells `W` among them. -/
structure Local {S : Type u} {κ : Type v} {ν : Type w} [Store S κ ν] {β : Type x}
    (op : S → Option (β × S)) (R W : Set κ) : Prop where
  /-- With the cells `R` of another store it does there what it does on that store. -/
  reads : ∀ s t, op (graft R s t) = (op s).map fun r => (r.1, graft R r.2 t)
  writes : ∀ ⦃s r⦄, op s = some r → ∀ ⦃k⦄, k ∉ W → cell r.2 k = cell s k

section Local

variable {S : Type u} {κ : Type v} {ν : Type w} [Store S κ ν] {β : Type x}
  {op : S → Option (β × S)} {R W : Set κ} {s s' t : S} {b : β}

/-- **Locality rule.** On a store that agrees on what it reads, the operation has the same outcome,
and what it leaves agrees again. -/
theorem Local.congr (h : Local op R W) (hagree : Agree R s t) (hop : op s = some (b, s')) :
    ∃ t', op t = some (b, t') ∧ Agree R s' t' := by
  refine ⟨graft R s' t, ?_, (agree_graft R s' t).symm⟩
  rw [← graft_of_agree hagree, h.reads, hop, Option.map_some, graft_of_agree hagree]

/-- What it does not write, it leaves. -/
theorem Local.agree {P : Set κ} (h : Local op R W) (hdisjoint : Disjoint W P)
    (hop : op s = some (b, s')) : Agree P s s' :=
  fun _ hk => (h.writes hop (Set.disjoint_right.mp hdisjoint hk)).symm

end Local

/-! ## Objects on one store -/

section Objects

variable {ι : Type y} {S : Type u} {κ : Type v} {ν : Type w} {γ : Type x} {α : Type z}

/-- The calls of one object in order; each may change the object and the store. -/
def solo (act : α → γ → S → Option (γ × S)) : List α → γ → S → Option (γ × S)
  | [], g, s => some (g, s)
  | a :: as, g, s => (act a g s).bind fun (g, s) => solo act as g s

/-- Calls in two parts. -/
theorem solo_append (act : α → γ → S → Option (γ × S)) (as bs : List α) (g : γ) (s : S) :
    solo act (as ++ bs) g s = (solo act as g s).bind fun (g, s) => solo act bs g s := by
  induction as generalizing g s with
  | nil => rfl
  | cons a as ih =>
    rw [List.cons_append, solo, solo, Option.bind_assoc]
    exact Option.bind_congr fun r _ => ih r.1 r.2

/-- Objects that keep apart. Object `i`, while its state meets `inv i` and for calls that meet
`allowed i`, reads `R i` and writes `W i`; no other object writes what it reads. -/
structure Separated [Store S κ ν] (act : ι → α → γ → S → Option (γ × S)) (inv : ι → γ → Prop)
    (allowed : ι → α → Prop) (R W : ι → Set κ) : Prop where
  isLocal : ∀ ⦃i a g⦄, inv i g → allowed i a → Local (act i a g) (R i) (W i)
  keeps : ∀ ⦃i a g s r⦄, inv i g → allowed i a → act i a g s = some r → inv i r.1
  subset : ∀ i, W i ⊆ R i
  disjoint : ∀ ⦃i j⦄, i ≠ j → Disjoint (W i) (R j)

/-- One object alone depends on what it reads only. -/
theorem Separated.solo_congr [Store S κ ν] {act : ι → α → γ → S → Option (γ × S)}
    {inv : ι → γ → Prop} {allowed : ι → α → Prop} {R W : ι → Set κ}
    (h : Separated act inv allowed R W) {i : ι} {as : List α} {g g' : γ} {s s' t : S}
    (hinv : inv i g) (hallowed : ∀ a ∈ as, allowed i a) (hagree : Agree (R i) s t)
    (hsolo : solo (act i) as g s = some (g', s')) :
    ∃ t', solo (act i) as g t = some (g', t') ∧ Agree (R i) s' t' := by
  -- on the calls; both stores go on together, agreeing on what the object reads
  induction as generalizing g s t with
  | nil =>
    cases hsolo
    exact ⟨t, rfl, hagree⟩
  | cons a as ih =>
    obtain ⟨⟨b, s₁⟩, hact, hrest⟩ := Option.bind_eq_some_iff.mp hsolo
    have ha : allowed i a := hallowed a List.mem_cons_self
    obtain ⟨t₁, ht₁, hagree₁⟩ := (h.isLocal hinv ha).congr hagree hact
    obtain ⟨t', ht', hagree'⟩ := ih (h.keeps hinv ha hact)
      (fun a' ha' => hallowed a' (List.mem_cons_of_mem a ha')) hagree₁ hrest
    refine ⟨t', ?_, hagree'⟩
    rw [solo, ht₁]
    exact ht'

variable [DecidableEq ι] (act : ι → α → γ → S → Option (γ × S))

/-- Calls of many objects in the order they are made. -/
def run : List (ι × α) → (ι → γ) → S → Option ((ι → γ) × S)
  | [], g, s => some (g, s)
  | (i, a) :: w, g, s =>
    (act i a (g i) s).bind fun (b, s) => run w (Function.update g i b) s

/-- The calls among them that object `i` gets, in order. -/
def callsOf (i : ι) (w : List (ι × α)) : List α :=
  w.filterMap fun (j, a) => if j = i then some a else none

/-- In an empty interleaving nobody calls. -/
@[simp] theorem callsOf_nil (i : ι) : callsOf i ([] : List (ι × α)) = [] := rfl

/-- The first call is one of the party -/
@[simp] theorem callsOf_cons_self (i : ι) (a : α) (w : List (ι × α)) :
    callsOf i ((i, a) :: w) = a :: callsOf i w := by
  simp [callsOf]

/-- Or of another one. -/
theorem callsOf_cons_of_ne {i j : ι} (hne : j ≠ i) (a : α) (w : List (ι × α)) :
    callsOf i ((j, a) :: w) = callsOf i w := by
  simp [callsOf, hne]

variable {act} [Store S κ ν] {inv : ι → γ → Prop} {allowed : ι → α → Prop} {R W : ι → Set κ}
  {w w' : List (ι × α)} {g g' : ι → γ} {s s' : S}

/-- The calls an object gets in an allowed run are allowed. -/
theorem allowed_of_callsOf (hallowed : ∀ e ∈ w, allowed e.1 e.2) (i : ι) :
    ∀ a ∈ callsOf i w, allowed i a := by
  intro a ha
  obtain ⟨⟨j, b⟩, hmem, heq⟩ := List.mem_filterMap.mp ha
  dsimp only at heq
  split_ifs at heq with hji
  cases heq
  exact hji ▸ hallowed (j, a) hmem

/-- After a call of one object all of them meet their invariants. -/
theorem inv_update (hinv : ∀ i, inv i (g i)) {i : ι} {b : γ} (hb : inv i b) (j : ι) :
    inv j (Function.update g i b j) := by
  by_cases hji : j = i
  · subst hji
    rwa [Function.update_self]
  · rw [Function.update_of_ne hji]
    exact hinv j

/-- **Runs come apart.** A run of many objects ends in some state exactly when each object alone,
on the store as it was, ends in its part of that state, and no other cell has changed. -/
theorem Separated.run_iff (h : Separated act inv allowed R W) (hinv : ∀ i, inv i (g i))
    (hallowed : ∀ e ∈ w, allowed e.1 e.2) :
    run act w g s = some (g', s')
      ↔ (∀ i, ∃ t, solo (act i) (callsOf i w) (g i) s = some (g' i, t) ∧ Agree (R i) t s')
        ∧ ∀ k, (∀ i, k ∉ W i) → cell s' k = cell s k := by
  -- on the calls; the call in front is the first one of its object and of no other
  induction w generalizing g s with
  | nil =>
    constructor
    · intro hrun
      cases hrun
      exact ⟨fun i => ⟨s', rfl, Agree.refl (R i) s'⟩, fun _ _ => rfl⟩
    · rintro ⟨hsolo, hframe⟩
      have hobjects : g = g' := by
        funext i
        obtain ⟨t, ht, -⟩ := hsolo i
        exact congrArg Prod.fst (Option.some.inj ht)
      have hstore : s = s' := by
        apply ext
        intro k
        by_cases hk : ∃ i, k ∈ W i
        · obtain ⟨i, hi⟩ := hk
          obtain ⟨t, ht, hagree⟩ := hsolo i
          obtain rfl : s = t := congrArg Prod.snd (Option.some.inj ht)
          exact hagree (h.subset i hi)
        · exact (hframe k (not_exists.mp hk)).symm
      rw [run, hobjects, hstore]
  | cons e w ih =>
    obtain ⟨j, a⟩ := e
    have ha : allowed j a := hallowed (j, a) List.mem_cons_self
    have hrest : ∀ e ∈ w, allowed e.1 e.2 := fun e he => hallowed e (List.mem_cons_of_mem _ he)
    have hlocal := h.isLocal (hinv j) ha
    cases hact : act j a (g j) s with
    | none =>
      constructor
      · intro hrun
        rw [run, hact] at hrun
        cases hrun
      · rintro ⟨hsolo, -⟩
        obtain ⟨t, ht, -⟩ := hsolo j
        rw [callsOf_cons_self, solo, hact] at ht
        cases ht
    | some r =>
      obtain ⟨b, s₁⟩ := r
      have hstep : run act ((j, a) :: w) g s = run act w (Function.update g j b) s₁ := by
        rw [run, hact]
        rfl
      rw [hstep, ih (inv_update hinv (h.keeps (hinv j) ha hact)) hrest]
      refine and_congr (forall_congr' fun i => ?_) (forall_congr' fun k => ?_)
      · by_cases hij : i = j
        · -- the call is that of object `i`
          subst hij
          rw [callsOf_cons_self, solo, hact, Function.update_self]
          rfl
        · -- object `i` sees neither the call nor what it wrote
          rw [callsOf_cons_of_ne (Ne.symm hij), Function.update_of_ne hij]
          have hagree : Agree (R i) s s₁ := hlocal.agree (h.disjoint (Ne.symm hij)) hact
          have hcalls := allowed_of_callsOf hrest i
          constructor
          · rintro ⟨t, ht, hend⟩
            obtain ⟨t', ht', hsame⟩ := h.solo_congr (hinv i) hcalls hagree.symm ht
            exact ⟨t', ht', hsame.symm.trans hend⟩
          · rintro ⟨t, ht, hend⟩
            obtain ⟨t', ht', hsame⟩ := h.solo_congr (hinv i) hcalls hagree ht
            exact ⟨t', ht', hsame.symm.trans hend⟩
      · refine imp_congr_right fun hk => ?_
        rw [hlocal.writes hact (hk j)]

end Objects

end IQzip.Library
