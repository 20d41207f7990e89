import IQzip.Library.Iteration
import IQzip.Library.Coder
import Mathlib.Tactic.Common

/-! # Pumping a source through a coder

The read-code-write loop: read a chunk when the last one is used up, call the coder, append what
it produced to the sink; stop when the source has ended and a call produced nothing. The loop is
that of `Pump.step`.

* `Pump.exists_exits_of_draws`: over a drawing coder whose groups fit the chunks and whose output is
  bounded, the loop ends with all of the source read and used.
* `Pump.exists_exits_emit`: over a paced coder, moreover, everything determined by the source is in
  the sink.
* `Pump.not_exits_of_draws`: when the chunk is no whole number of groups and the source fills a
  chunk, the loop never ends. -/

namespace IQzip.Library

universe u v w

variable {σ : Type u} {α : Type v} {β : Type w}

/-- The state of the loop: the coder, the part of the last chunk it has not used, the source not
yet read, the sink, and the two flags of the loop condition. -/
structure Pump (σ : Type u) (α : Type v) (β : Type w) where
  state : σ
  pending : List α
  unread : List α
  written : List β
  inputAvail : Bool
  outputAvail : Bool

namespace Pump

/-- The loop before its first turn. -/
def start (s₀ : σ) (input : List α) : Pump σ α β :=
  { state := s₀
    pending := []
    unread := input
    written := []
    inputAvail := true
    outputAvail := true }

/-- Read the next chunk when the last one is used up; a short chunk is the last one. -/
def refill (m : Nat) (p : Pump σ α β) : Pump σ α β :=
  if p.pending.isEmpty && p.inputAvail then
    { p with
      pending := p.unread.take m
      unread := p.unread.drop m
      inputAvail := decide (m ≤ p.unread.length) }
  else p

/-- The call of one turn. -/
def answer (c : Coder σ α β) (m : Nat) (p : Pump σ α β) : Answer σ β :=
  c.call p.state .noFlush (p.refill m).pending m

/-- The state after a turn whose call returned zero. -/
def advance (c : Coder σ α β) (m : Nat) (p : Pump σ α β) : Pump σ α β :=
  { state := (p.answer c m).next
    pending := (p.refill m).pending.drop (p.answer c m).consumed
    unread := (p.refill m).unread
    written := p.written ++ (p.answer c m).produced
    inputAvail := (p.refill m).inputAvail
    outputAvail := !(p.answer c m).produced.isEmpty }

/-- One turn of the loop. -/
def step (c : Coder σ α β) (m : Nat) (p : Pump σ α β) : Pump σ α β ⊕ (Int × Pump σ α β) :=
  if p.inputAvail || p.outputAvail then
    if (p.answer c m).status = 0 then .inl (p.advance c m)
    -- a failed call leaves at once, with the state before the turn
    else .inr ((p.answer c m).status, p)
  else .inr (0, p)

/-- A zero status is that of the loop condition, not of a call. -/
theorem eq_of_step_zero {c : Coder σ α β} {m : Nat} {p q : Pump σ α β}
    (h : step c m p = .inr (0, q)) : q = p := by
  unfold step at h
  split_ifs at h with hgo hok
  · simp only [Sum.inr.injEq, Prod.mk.injEq] at h
    exact absurd h.1 hok
  · cases h
    rfl

/-- The loop is left with both flags down. -/
theorem flags_of_step_zero {c : Coder σ α β} {m : Nat} {p q : Pump σ α β}
    (h : step c m p = .inr (0, q)) : p.inputAvail = false ∧ p.outputAvail = false := by
  unfold step at h
  split_ifs at h with hgo hok
  · simp only [Sum.inr.injEq, Prod.mk.injEq] at h
    exact absurd h.1 hok
  · simpa using hgo

section Refill

variable (m : Nat) (p : Pump σ α β)

/-- A read leaves the coder alone. -/
@[simp] theorem state_refill : (p.refill m).state = p.state := by
  unfold refill; split <;> rfl

/-- It writes nothing. -/
@[simp] theorem written_refill : (p.refill m).written = p.written := by
  unfold refill; split <;> rfl

/-- Reading moves items from the source to the chunk. -/
@[simp] theorem pending_append_unread_refill :
    (p.refill m).pending ++ (p.refill m).unread = p.pending ++ p.unread := by
  unfold refill
  split
  · next h =>
    rw [Bool.and_eq_true, List.isEmpty_iff] at h
    simp [h.1]
  · rfl

end Refill

/-! ## What every turn keeps -/

variable {c : Coder σ α β} {m : Nat} {s₀ : σ} {input : List α}

/-- The invariant of the loop over any coder: the sink holds what a history of the coder has
produced, and what that history has used is followed by the chunk and the source. -/
structure Sound (c : Coder σ α β) (m : Nat) (s₀ : σ) (input : List α) (used : List α)
    (p : Pump σ α β) : Prop where
  reaches : c.Reaches m s₀ input p.state used p.written
  split : used ++ (p.pending ++ p.unread) = input
  pending_le : p.pending.length ≤ m
  ended : p.inputAvail = false → p.unread = []

/-- The start is sound. -/
theorem sound_start : Sound c m s₀ input [] (start s₀ input) where
  reaches := .start
  split := rfl
  pending_le := Nat.zero_le m
  ended h := by cases h

namespace Sound

variable {used : List α} {p : Pump σ α β}

/-- A read keeps an account. -/
theorem refill (h : Sound c m s₀ input used p) : Sound c m s₀ input used (p.refill m) where
  reaches := by
    rw [state_refill, written_refill]
    exact h.reaches
  split := by
    rw [pending_append_unread_refill]
    exact h.split
  pending_le := by
    unfold Pump.refill
    split
    · exact List.length_take_le ..
    · exact h.pending_le
  ended := by
    unfold Pump.refill
    split
    · intro hend
      have hlt : ¬ m ≤ p.unread.length := of_decide_eq_false hend
      exact List.drop_eq_nil_of_le (by omega)
    · exact h.ended

/-- What a turn offers continues what has been used. -/
theorem offered_prefix (h : Sound c m s₀ input used p) :
    used ++ (p.refill m).pending <+: input := by
  rw [← h.refill.split, ← List.append_assoc]
  exact List.prefix_append ..

/-- **A turn keeps the invariant**, and uses what its call reports. -/
theorem advance (h : Sound c m s₀ input used p) (hok : (p.answer c m).status = 0) :
    Sound c m s₀ input (used ++ (p.refill m).pending.take (p.answer c m).consumed)
      (p.advance c m) where
  reaches := h.reaches.call h.offered_prefix h.refill.pending_le hok
  split := by
    have hsplit := h.refill.split
    rw [← hsplit, Pump.advance, List.append_assoc, ← List.append_assoc (List.take ..),
      List.take_append_drop]
  pending_le := by
    have := h.refill.pending_le
    simp only [Pump.advance, List.length_drop]
    omega
  ended := h.refill.ended

end Sound

/-- Over a coder that accepts the input no turn fails. -/
theorem answer_status {used : List α} {p : Pump σ α β} (accepts : c.Accepts m s₀ input)
    (h : Sound c m s₀ input used p) :
    (p.answer c m).status = 0 :=
  accepts h.reaches h.offered_prefix h.refill.pending_le

/-- A turn that goes on is an advance of a call that returned zero. -/
theorem eq_of_step_inl {p p' : Pump σ α β} (h : step c m p = .inl p') :
    (p.answer c m).status = 0 ∧ p' = p.advance c m := by
  unfold step at h
  split_ifs at h with hgo hok
  cases h
  exact ⟨hok, rfl⟩

/-- A turn that goes on has a flag up. -/
theorem flags_of_step_inl {p p' : Pump σ α β} (h : step c m p = .inl p') :
    (p.inputAvail || p.outputAvail) = true := by
  by_contra hstop
  rw [step, if_neg hstop] at h
  cases h

/-- **Run rule.** Every head of the loop is sound. -/
theorem sound_of_loops {q : Pump σ α β} (h : Loops (step c m) (start s₀ input) q) :
    ∃ used, Sound c m s₀ input used q := by
  refine h.invariant (fun p => ∃ used, Sound c m s₀ input used p) ?_ ⟨[], sound_start⟩
  rintro p p' ⟨used, hp⟩ hstep
  obtain ⟨hok, rfl⟩ := eq_of_step_inl hstep
  exact ⟨_, hp.advance hok⟩

/-- **Pump rule.** An invariant under which no turn fails, and a measure that every turn makes
smaller: the loop ends, with both flags down and the invariant kept. -/
theorem exists_exits_of_progress (inv : Pump σ α β → Prop) (measure : Pump σ α β → Nat)
    {p : Pump σ α β}
    (hturn : ∀ p, inv p → (p.inputAvail || p.outputAvail) = true →
      (p.answer c m).status = 0 ∧ inv (p.advance c m) ∧ measure (p.advance c m) < measure p)
    (hp : inv p) :
    ∃ q, Exits (step c m) p (0, q) ∧ inv q ∧ q.inputAvail = false ∧ q.outputAvail = false := by
  have hexits : ∃ r, Exits (step c m) p r ∧ (r.1 = 0 ∧ inv r.2 ∧ r.2.inputAvail = false
      ∧ r.2.outputAvail = false) := by
    refine exists_exits inv _ measure ?_ hp
    intro p hp
    by_cases hgo : (p.inputAvail || p.outputAvail) = true
    · obtain ⟨hok, hnext, hlt⟩ := hturn p hp hgo
      exact Or.inl ⟨p.advance c m, by rw [step, if_pos hgo, if_pos hok], hnext, hlt⟩
    · have hflags : p.inputAvail = false ∧ p.outputAvail = false := by simpa using hgo
      exact Or.inr ⟨(0, p), by rw [step, if_neg hgo], rfl, hp, hflags⟩
  obtain ⟨⟨status, q⟩, hexit, hzero, hq⟩ := hexits
  cases hzero
  exact ⟨q, hexit, hq⟩

/-! ## A drawing coder -/

section Draws

variable {grain width bound : Nat}

/-- The invariant of the loop over a drawing coder: the chunk and the source are whole groups, and a
turn that produced nothing has used its chunk up. -/
structure Grouped (c : Coder σ α β) (m : Nat) (s₀ : σ) (grain : Nat) (input used : List α)
    (p : Pump σ α β) : Prop extends Sound c m s₀ input used p where
  pending_dvd : grain ∣ p.pending.length
  unread_dvd : grain ∣ p.unread.length
  quiet : p.outputAvail = false → p.pending = []

/-- The start is grouped. -/
theorem grouped_start (hdvd : grain ∣ input.length) :
    Grouped c m s₀ grain input [] (start s₀ input) where
  toSound := sound_start
  pending_dvd := Nat.dvd_zero grain
  unread_dvd := hdvd
  quiet h := by cases h

/-- Reading keeps whole groups, when chunks are whole groups or the source fits in one. -/
theorem Grouped.refill_dvd {used : List α} {p : Pump σ α β}
    (h : Grouped c m s₀ grain input used p) (hfit : grain ∣ m ∨ input.length < m) :
    grain ∣ (p.refill m).pending.length ∧ grain ∣ (p.refill m).unread.length := by
  unfold Pump.refill
  split
  · have hle : p.unread.length ≤ input.length := by
      rw [← h.split]
      simp only [List.length_append]
      omega
    simp only [List.length_take, List.length_drop]
    -- a full chunk is `m` items, the last one is all there is
    rcases Nat.le_total m p.unread.length with hm | hm
    · have hdvd : grain ∣ m := hfit.resolve_right (by omega)
      rw [Nat.min_eq_left hm]
      exact ⟨hdvd, Nat.dvd_sub h.unread_dvd hdvd⟩
    · rw [Nat.min_eq_right hm, Nat.sub_eq_zero_of_le hm]
      exact ⟨h.unread_dvd, Nat.dvd_zero grain⟩
  · exact ⟨h.pending_dvd, h.unread_dvd⟩

/-- A turn whose call produced nothing used its whole chunk: there was space. -/
theorem Grouped.consumed_of_produced_nil (draws : c.Draws m s₀ input grain width)
    (hwidth : width ≤ m) {used : List α} {p : Pump σ α β} (h : Grouped c m s₀ grain input used p)
    (hfit : grain ∣ m ∨ input.length < m) (hok : (p.answer c m).status = 0)
    (hnil : (p.answer c m).produced = []) :
    (p.answer c m).consumed = (p.refill m).pending.length := by
  rcases draws h.reaches h.offered_prefix h.refill.pending_le hok with hused | ⟨-, hfull⟩
  · have hmod : (p.refill m).pending.length % grain = 0 := Nat.mod_eq_zero_of_dvd
      (h.refill_dvd hfit).1
    rw [Pump.answer, hused, hmod, Nat.sub_zero]
  · -- no space was taken, so the call did not stop for want of it
    rw [← Pump.answer, hnil, List.length_nil] at hfull
    omega

/-- **A turn keeps the invariant over a drawing coder.** -/
theorem Grouped.advance (draws : c.Draws m s₀ input grain width) (hwidth : width ≤ m)
    {used : List α} {p : Pump σ α β} (h : Grouped c m s₀ grain input used p)
    (hfit : grain ∣ m ∨ input.length < m) (hok : (p.answer c m).status = 0) :
    Grouped c m s₀ grain input (used ++ (p.refill m).pending.take (p.answer c m).consumed)
      (p.advance c m) where
  toSound := h.toSound.advance hok
  pending_dvd := by
    simp only [Pump.advance, List.length_drop]
    exact Nat.dvd_sub (h.refill_dvd hfit).1
      (draws.grain_dvd h.reaches h.offered_prefix h.refill.pending_le hok)
  unread_dvd := (h.refill_dvd hfit).2
  quiet := by
    intro hquiet
    have hnil : (p.answer c m).produced = [] := by
      simpa [Pump.advance] using hquiet
    simp [Pump.advance, h.consumed_of_produced_nil draws hwidth hfit hok hnil]

/-- What is left to do: items to use, items to produce of at most `bound`, and the two flags. A turn
that produces something may raise `outputAvail`, so an item to produce counts twice. -/
def toDo (bound : Nat) (p : Pump σ α β) : Nat :=
  (p.pending.length + p.unread.length) + 2 * (bound - p.written.length)
    + p.inputAvail.toNat + p.outputAvail.toNat

/-- Reading never raises the flag of the source. -/
theorem inputAvail_refill_le (p : Pump σ α β) :
    (p.refill m).inputAvail.toNat ≤ p.inputAvail.toNat := by
  unfold Pump.refill
  split
  · next hread =>
    rw [Bool.and_eq_true] at hread
    rw [hread.2]
    exact Bool.toNat_le _
  · exact Nat.le_refl _

/-- Reading an empty chunk takes the flag down. -/
theorem inputAvail_refill_of_nil (hm : 0 < m) {p : Pump σ α β}
    (hread : (p.pending.isEmpty && p.inputAvail) = true) (hempty : (p.refill m).pending = []) :
    (p.refill m).inputAvail = false := by
  have htake : p.unread.take m = [] := by simpa [Pump.refill, hread] using hempty
  have hunread : p.unread = [] := by
    rcases List.take_eq_nil_iff.mp htake with hzero | hu
    · omega
    · exact hu
  simp only [Pump.refill, hread, if_true, hunread, List.length_nil, decide_eq_false_iff_not]
  omega

/-- **A turn makes progress.** -/
theorem Grouped.toDo_lt (draws : c.Draws m s₀ input grain width)
    (makes : c.MakesAtMost m s₀ input bound) (hpos : 0 < width) (hwidth : width ≤ m)
    {used : List α} {p : Pump σ α β} (h : Grouped c m s₀ grain input used p)
    (hfit : grain ∣ m ∨ input.length < m) (hok : (p.answer c m).status = 0)
    (hgo : (p.inputAvail || p.outputAvail) = true) :
    (p.advance c m).toDo bound < p.toDo bound := by
  have hmade : (p.advance c m).written.length ≤ bound := makes (h.toSound.advance hok).reaches
  have hsplit : (p.refill m).pending.length + (p.refill m).unread.length
      = p.pending.length + p.unread.length := by
    rw [← List.length_append, pending_append_unread_refill, List.length_append]
  have hin := inputAvail_refill_le (m := m) p
  simp only [Pump.advance, List.length_append] at hmade
  simp only [toDo, Pump.advance, List.length_append, List.length_drop]
  -- a turn that produces has fewer items to produce; one that does not uses up its chunk
  by_cases hnil : (p.answer c m).produced = []
  · simp only [h.consumed_of_produced_nil draws hwidth hfit hok hnil, hnil, List.length_nil,
      Nat.sub_self, List.isEmpty_nil, Bool.not_true, Bool.toNat_false]
    by_cases hempty : (p.refill m).pending = []
    · -- nothing was offered: the source has just ended, or this was the last turn
      rw [hempty, List.length_nil] at hsplit
      by_cases hread : (p.pending.isEmpty && p.inputAvail) = true
      · have hend := inputAvail_refill_of_nil (by omega) hread hempty
        rw [Bool.and_eq_true] at hread
        simp only [hend, hread.2, Bool.toNat_false, Bool.toNat_true]
        omega
      · -- the last turn: only the output flag goes down
        have hsame : p.refill m = p := by rw [Pump.refill, if_neg hread]
        rw [hsame] at hempty hsplit ⊢
        have hno : p.inputAvail = false := by simpa [hempty] using hread
        have hout : p.outputAvail = true := by simpa [hno] using hgo
        simp only [hno, hout, Bool.toNat_false, Bool.toNat_true]
        omega
    · have hlen := List.length_pos_iff.mpr hempty
      omega
  · have hlen := List.length_pos_iff.mpr hnil
    have hout := Bool.toNat_le (!(p.answer c m).produced.isEmpty)
    omega

/-- **The loop over a drawing coder ends**, when its output is bounded, with the whole source read
and used. -/
theorem exists_exits_of_draws (draws : c.Draws m s₀ input grain width)
    (makes : c.MakesAtMost m s₀ input bound) (hpos : 0 < width) (hwidth : width ≤ m)
    (accepts : c.Accepts m s₀ input) (hdvd : grain ∣ input.length)
    (hfit : grain ∣ m ∨ input.length < m) :
    ∃ p, Exits (step c m) (start s₀ input) (0, p) ∧ p.pending = [] ∧ p.unread = [] := by
  -- `Grouped` is the invariant and `toDo` the measure
  obtain ⟨p, hexit, ⟨used, h⟩, hin, hout⟩ := exists_exits_of_progress
    (fun p => ∃ used, Grouped c m s₀ grain input used p) (toDo bound) (by
      rintro p ⟨used, h⟩ hgo
      have hok := answer_status accepts h.toSound
      exact ⟨hok, ⟨_, h.advance draws hwidth hfit hok⟩,
        h.toDo_lt draws makes hpos hwidth hfit hok hgo⟩)
    ⟨[], grouped_start hdvd⟩
  exact ⟨p, hexit, h.quiet hout, h.ended hin⟩

/-- **The loop that never ends.** When the chunk is no whole number of groups and the source fills
a chunk, an incomplete group stays in the chunk, and the next chunk is never read. -/
theorem not_exits_of_draws (draws : c.Draws m s₀ input grain width)
    (accepts : c.Accepts m s₀ input) (hm : ¬ grain ∣ m) (hlen : m ≤ input.length)
    {r : Int × Pump σ α β} : ¬ Exits (step c m) (start s₀ input) r := by
  -- the chunk is never used up, so the flag of the source never goes down
  let stuck (p : Pump σ α β) : Prop := ∃ used, Sound c m s₀ input used p ∧ p.inputAvail = true
    ∧ (p.refill m).inputAvail = true ∧ ¬ grain ∣ (p.refill m).pending.length
  have hstep : ∀ p, stuck p → ∃ p', step c m p = .inl p' ∧ stuck p' := by
    rintro p ⟨used, h, hin, hmore, hgroup⟩
    have hok := answer_status accepts h
    have hgo : (p.inputAvail || p.outputAvail) = true := by simp [hin]
    refine ⟨p.advance c m, by rw [step, if_pos hgo, if_pos hok], _, h.advance hok, hmore, ?_⟩
    -- taking whole groups away leaves an incomplete one
    have hrest : ¬ grain ∣ ((p.refill m).pending.drop (p.answer c m).consumed).length := by
      intro hdvd
      rw [List.length_drop] at hdvd
      exact hgroup ((Nat.dvd_sub_iff_left (c.consumed_le ..)
        (draws.grain_dvd h.reaches h.offered_prefix h.refill.pending_le hok)).mp hdvd)
    have hkeep : (p.advance c m).refill m = p.advance c m := by
      have hne : ((p.advance c m).pending.isEmpty && (p.advance c m).inputAvail) ≠ true := by
        intro hread
        rw [Bool.and_eq_true, List.isEmpty_iff] at hread
        exact hrest (by rw [show (p.refill m).pending.drop (p.answer c m).consumed = []
          from hread.1]; exact Nat.dvd_zero grain)
      rw [Pump.refill, if_neg hne]
    rw [hkeep]
    exact ⟨hmore, hrest⟩
  refine not_exits stuck hstep ⟨[], sound_start, rfl, ?_, ?_⟩
  · simp [start, Pump.refill, hlen]
  · simp [start, Pump.refill, hlen, hm]

end Draws

/-! ## A paced coder -/

section Paced

variable {grain width : Nat} {emit : List α → List β}

/-- The invariant of the loop over a paced coder: the chunk and the source are whole groups, and a
turn that produced nothing has used its chunk up. -/
structure Steady (c : Coder σ α β) (m : Nat) (s₀ : σ) (grain : Nat) (emit : List α → List β)
    (input : List α) (used : List α) (p : Pump σ α β) : Prop
    extends Sound c m s₀ input used p where
  pending_dvd : grain ∣ p.pending.length
  unread_dvd : grain ∣ p.unread.length
  quiet : p.outputAvail = false → p.pending = [] ∧ p.written = emit used

/-- The sink never holds more than the input determines. -/
theorem length_written_le (paced : c.Paced m s₀ input grain width emit) {q : Pump σ α β}
    (h : Loops (step c m) (start s₀ input) q) : q.written.length ≤ (emit input).length := by
  obtain ⟨used, hq⟩ := sound_of_loops h
  exact paced.makesAtMost hq.reaches

/-- After a turn whose call produced nothing the sink holds what was used determines: there was
space for more. -/
theorem Sound.written_of_produced_nil (paced : c.Paced m s₀ input grain width emit)
    (hwidth : width ≤ m) {used : List α} {p : Pump σ α β} (h : Sound c m s₀ input used p)
    (hok : (p.answer c m).status = 0) (hnil : (p.answer c m).produced = []) :
    p.written = emit (used ++ (p.refill m).pending.take (p.answer c m).consumed) := by
  rcases paced.stop h.reaches h.offered_prefix h.refill.pending_le hok with
    ⟨-, hmade⟩ | ⟨-, hfull⟩
  · rw [← Pump.answer, hnil, List.append_nil] at hmade
    exact hmade
  · rw [← Pump.answer, hnil, List.length_nil] at hfull
    omega

/-- **Run rule.** At every head of the loop after a turn that produced nothing, the sink holds what
was used determines. -/
theorem written_of_loops (paced : c.Paced m s₀ input grain width emit) (hwidth : width ≤ m)
    {q : Pump σ α β} (h : Loops (step c m) (start s₀ input) q) :
    ∃ used, Sound c m s₀ input used q ∧ (q.outputAvail = false → q.written = emit used) := by
  refine h.invariant (fun p => ∃ used, Sound c m s₀ input used p
    ∧ (p.outputAvail = false → p.written = emit used)) ?_ ⟨[], sound_start, nofun⟩
  rintro p p' ⟨used, hp, -⟩ hstep
  obtain ⟨hok, rfl⟩ := eq_of_step_inl hstep
  refine ⟨_, hp.advance hok, fun hquiet => ?_⟩
  have hnil : (p.answer c m).produced = [] := by simpa [Pump.advance] using hquiet
  rw [← hp.written_of_produced_nil paced hwidth hok hnil]
  simp [Pump.advance, hnil]

/-- Over a paced coder the loop is that over a drawing one. -/
theorem Steady.grouped {used : List α} {p : Pump σ α β}
    (h : Steady c m s₀ grain emit input used p) : Grouped c m s₀ grain input used p where
  toSound := h.toSound
  pending_dvd := h.pending_dvd
  unread_dvd := h.unread_dvd
  quiet hquiet := (h.quiet hquiet).1

/-- **A turn keeps the invariant over a paced coder.** -/
theorem Steady.advance (paced : c.Paced m s₀ input grain width emit) (hwidth : width ≤ m)
    {used : List α} {p : Pump σ α β} (h : Steady c m s₀ grain emit input used p)
    (hfit : grain ∣ m ∨ input.length < m) (hok : (p.answer c m).status = 0) :
    Steady c m s₀ grain emit input (used ++ (p.refill m).pending.take (p.answer c m).consumed)
      (p.advance c m) where
  toSound := h.toSound.advance hok
  pending_dvd := (h.grouped.advance paced.draws hwidth hfit hok).pending_dvd
  unread_dvd := (h.grouped.advance paced.draws hwidth hfit hok).unread_dvd
  quiet := by
    intro hquiet
    have hnil : (p.answer c m).produced = [] := by
      simpa [Pump.advance] using hquiet
    refine ⟨(h.grouped.advance paced.draws hwidth hfit hok).quiet hquiet, ?_⟩
    rw [← h.written_of_produced_nil paced hwidth hok hnil]
    simp [Pump.advance, hnil]

/-- What is left to do: items to use, items to produce, and the two flags. A turn that produces
something may raise `outputAvail`, so an item to produce counts twice. -/
def remaining (emit : List α → List β) (input : List α) (p : Pump σ α β) : Nat :=
  (p.pending.length + p.unread.length) + 2 * ((emit input).length - p.written.length)
    + p.inputAvail.toNat + p.outputAvail.toNat

/-- **A turn makes progress.** -/
theorem Steady.remaining_lt (paced : c.Paced m s₀ input grain width emit) (hpos : 0 < width)
    (hwidth : width ≤ m) {used : List α} {p : Pump σ α β}
    (h : Steady c m s₀ grain emit input used p) (hfit : grain ∣ m ∨ input.length < m)
    (hok : (p.answer c m).status = 0) (hgo : (p.inputAvail || p.outputAvail) = true) :
    (p.advance c m).remaining emit input < p.remaining emit input :=
  h.grouped.toDo_lt paced.draws paced.makesAtMost hpos hwidth hfit hok hgo

/-- **The loop over a paced coder ends when no call of its run fails**, with the whole source used
and everything it determines in the sink. -/
theorem exists_exits_of_run (paced : c.Paced m s₀ input grain width emit) (hpos : 0 < width)
    (hwidth : width ≤ m)
    (hok : ∀ p, Loops (step c m) (start s₀ input) p → (p.inputAvail || p.outputAvail) = true →
      (p.answer c m).status = 0)
    (hdvd : grain ∣ input.length) (hfit : grain ∣ m ∨ input.length < m) :
    ∃ p, Exits (step c m) (start s₀ input) (0, p) ∧ p.pending = [] ∧ p.unread = []
      ∧ p.written = emit input ∧ c.Reaches m s₀ input p.state input p.written := by
  -- `Steady` is the invariant and `remaining` the measure; the calls are those of the run
  obtain ⟨p, hexit, ⟨-, used, h⟩, hin, hout⟩ := exists_exits_of_progress
    (fun p => Loops (step c m) (start s₀ input) p ∧ ∃ used, Steady c m s₀ grain emit input used p)
    (remaining emit input) (by
      rintro p ⟨hloops, used, h⟩ hgo
      have hzero := hok p hloops hgo
      have hturn : step c m p = .inl (p.advance c m) := by rw [step, if_pos hgo, if_pos hzero]
      exact ⟨hzero, ⟨hloops.tail hturn, _, h.advance paced hwidth hfit hzero⟩,
        h.remaining_lt paced hpos hwidth hfit hzero hgo⟩)
    ⟨.refl, [], sound_start, Nat.dvd_zero grain, hdvd, nofun⟩
  -- both flags are down, so nothing is pending and nothing is unread
  obtain ⟨hpending, hmade⟩ := h.quiet hout
  have hunread := h.ended hin
  have hused : used = input := by
    have := h.split
    simpa [hpending, hunread] using this
  have hreach := h.reaches
  rw [hused] at hmade hreach
  exact ⟨p, hexit, hpending, hunread, hmade, hreach⟩

/-- **The loop over a paced coder ends**, with the whole source used and everything it determines
in the sink. -/
theorem exists_exits_emit (paced : c.Paced m s₀ input grain width emit) (hpos : 0 < width)
    (hwidth : width ≤ m) (accepts : c.Accepts m s₀ input) (hdvd : grain ∣ input.length)
    (hfit : grain ∣ m ∨ input.length < m) :
    ∃ p, Exits (step c m) (start s₀ input) (0, p) ∧ p.pending = [] ∧ p.unread = []
      ∧ p.written = emit input ∧ c.Reaches m s₀ input p.state input p.written := by
  refine exists_exits_of_run paced hpos hwidth (fun p hloops _ => ?_) hdvd hfit
  obtain ⟨used, hp⟩ := sound_of_loops hloops
  exact answer_status accepts hp

/-- **The loop that never ends**, over a paced coder. -/
theorem not_exits_of_not_dvd (paced : c.Paced m s₀ input grain width emit)
    (accepts : c.Accepts m s₀ input) (hm : ¬ grain ∣ m) (hlen : m ≤ input.length)
    {r : Int × Pump σ α β} : ¬ Exits (step c m) (start s₀ input) r :=
  not_exits_of_draws paced.draws accepts hm hlen

/-- **What an exit says**: the groups fit the chunks, and everything has been used and written. -/
theorem exits_inv (paced : c.Paced m s₀ input grain width emit) (hpos : 0 < width)
    (hwidth : width ≤ m) (accepts : c.Accepts m s₀ input) (hdvd : grain ∣ input.length)
    {p : Pump σ α β} (h : Exits (step c m) (start s₀ input) (0, p)) :
    (grain ∣ m ∨ input.length < m) ∧ p.pending = [] ∧ p.written = emit input
      ∧ c.Reaches m s₀ input p.state input p.written := by
  have hfit : grain ∣ m ∨ input.length < m := by
    by_contra hbad
    rw [not_or, not_lt] at hbad
    exact not_exits_of_not_dvd paced accepts hbad.1 hbad.2 h
  obtain ⟨q, hq, hpending, -, hwritten, hreach⟩ :=
    exists_exits_emit paced hpos hwidth accepts hdvd hfit
  cases h.unique hq
  exact ⟨hfit, hpending, hwritten, hreach⟩

/-- An exit with nothing pending has used all of the source, and the sink holds what it
determines. -/
theorem exits_used (paced : c.Paced m s₀ input grain width emit) (hwidth : width ≤ m)
    {p : Pump σ α β} (h : Exits (step c m) (start s₀ input) (0, p)) (hpending : p.pending = []) :
    p.written = emit input ∧ c.Reaches m s₀ input p.state input p.written := by
  obtain ⟨last, hloops, hleave⟩ := h
  obtain rfl := eq_of_step_zero hleave
  obtain ⟨hin, hout⟩ := flags_of_step_zero hleave
  obtain ⟨used, hsound, hmade⟩ := written_of_loops paced hwidth hloops
  have hused : used = input := by
    have := hsound.split
    simpa [hpending, hsound.ended hin] using this
  have hreach := hsound.reaches
  rw [hused] at hmade hreach
  exact ⟨hmade hout, hreach⟩

end Paced

end Pump

end IQzip.Library
