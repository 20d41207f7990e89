import IQzip.Library.Eager
import IQzip.Library.Rechunk
import Mathlib.Data.List.Basic

/-! # Backlog of a rechunked coder

A paced coder may stop in the middle of what it has been offered when its output space runs short,
and a rechunker does not come back to what a call left. So a call must read its block whatever
backlog the calls before it have built up, and the last call must be able to clear it. `leastMade`
says how little the coder can have produced before each block, `KeepsPace` that even then every
block is read and the end is reached. This is exact: with it every paced coder reads and delivers
everything (`KeepsPace.complete`), and only with it does the coder that always stops as early as it
may (`Coder.lazy`, `keepsPace_of_complete`). -/

namespace IQzip.Library

universe u v w

variable {σ : Type u} {α : Type v} {β : Type w}

/-- What input determines: more input determines more, nothing determines nothing, and it comes in
groups of `g` items. -/
structure Emits (g : Nat) (emit : List α → List β) : Prop where
  mono : ∀ ⦃xs ys⦄, xs <+: ys → emit xs <+: emit ys
  nil : emit [] = []
  dvd : ∀ xs, g ∣ (emit xs).length

/-! ## Stopping for want of space -/

/-- The least that a call with space `m` has produced when it stops with less than `width` of it
left, in groups of `g` items. -/
def stopAt (m width g : Nat) : Nat := ((m - width) / g + 1) * g

section StopAt

variable {m width g k : Nat}

/-- It is no more than the space. -/
theorem stopAt_le (hgw : g ≤ width) (hwm : width ≤ m) : stopAt m width g ≤ m := by
  have hdiv := Nat.div_mul_le_self (m - width) g
  rw [stopAt, Nat.succ_mul]
  omega

/-- It leaves less than `width`. -/
theorem lt_stopAt (hg : 0 < g) : m < stopAt m width g + width := by
  have hlt := Nat.lt_div_mul_add hg (a := m - width)
  rw [stopAt, Nat.succ_mul]
  omega

/-- Groups that leave less than `width` are that many. -/
theorem stopAt_le_of_dvd (hwm : width ≤ m) (hdvd : g ∣ k) (hlt : m < k + width) :
    stopAt m width g ≤ k := by
  obtain ⟨q, rfl⟩ := hdvd
  have hless : m - width < g * q := by omega
  rw [stopAt, Nat.mul_comm]
  exact Nat.mul_le_mul_left g (Nat.succ_le_of_lt (Nat.div_lt_of_lt_mul hless))

end StopAt

namespace Coder

/-- Histories produce groups of `g` items. -/
def Grouped (c : Coder σ α β) (m : Nat) (s₀ : σ) (input : List α) (g : Nat) : Prop :=
  ∀ ⦃s used made⦄, c.Reaches m s₀ input s used made → g ∣ made.length

/-- Keeping a ledger does not change the groups. -/
theorem Grouped.recording {c : Coder σ α β} {m g : Nat} {s₀ : σ} {input : List α}
    (grouped : c.Grouped m s₀ input g) : c.recording.Grouped m (Ledger.start s₀) input g :=
  fun _ _ _ hs => grouped (recording_reaches hs).1

section Stops

variable {c : Coder σ α β} {m width g : Nat} {s₀ s : σ} {emit : List α → List β}
  {input used xs : List α} {made : List β}

/-- **A call that does not finish its offer** has produced as much as it must to stop. -/
theorem Paced.stops (paced : c.Paced m s₀ input 1 width emit) (grouped : c.Grouped m s₀ input g)
    (hwm : width ≤ m) (hs : c.Reaches m s₀ input s used made) (hpre : used ++ xs <+: input)
    (hlen : xs.length ≤ m) (hok : (c.call s .noFlush xs m).status = 0) :
    ((c.call s .noFlush xs m).consumed = xs.length
        ∧ made ++ (c.call s .noFlush xs m).produced = emit (used ++ xs))
      ∨ stopAt m width g ≤ (c.call s .noFlush xs m).produced.length := by
  rcases paced.stop hs hpre hlen hok with ⟨hused, hmade⟩ | ⟨-, hfull⟩
  · have hall : (c.call s .noFlush xs m).consumed = xs.length := by
      rw [hused, Nat.mod_one, Nat.sub_zero]
    rw [hall, List.take_length] at hmade
    exact Or.inl ⟨hall, hmade⟩
  · have hboth := grouped (hs.call hpre hlen hok)
    rw [List.length_append] at hboth
    exact Or.inr (stopAt_le_of_dvd hwm ((Nat.dvd_add_right (grouped hs)).mp hboth) hfull)

/-- **A call reads its offer** when everything but the last item is too little to stop for. -/
theorem Paced.reads (paced : c.Paced m s₀ input 1 width emit) (grouped : c.Grouped m s₀ input g)
    (hwm : width ≤ m) (hs : c.Reaches m s₀ input s used made) (hpre : used ++ xs <+: input)
    (hlen : xs.length ≤ m) (hok : (c.call s .noFlush xs m).status = 0)
    (hshort : (emit (used ++ xs.dropLast)).length < made.length + stopAt m width g) :
    (c.call s .noFlush xs m).consumed = xs.length := by
  rcases paced.stops grouped hwm hs hpre hlen hok with ⟨hall, -⟩ | hmade
  · exact hall
  · by_contra hne
    have hle := c.consumed_le s .noFlush xs m
    -- what it has read is in front of the last item, and determines what it has produced
    have hread : xs.take (c.call s .noFlush xs m).consumed <+: xs.dropLast := by
      rw [List.dropLast_eq_take]
      exact List.take_prefix_take_left (by omega)
    have hmade' := ((paced.sound (hs.call hpre hlen hok)).trans
      (paced.mono ((List.prefix_append_right_inj used).mpr hread))).length_le
    rw [List.length_append] at hmade'
    omega

end Stops

end Coder

/-! ## Keeping pace -/

/-- How much a paced coder has produced at least before the block `i`, when it has read everything
up to there: all that is determined, or a call's stop more than before the last block. -/
def leastMade (emit : List α → List β) (n u : Nat) (input : List α) : Nat → Nat
  | 0 => 0
  | i + 1 => min (emit (input.take ((i + 1) * n))).length (leastMade emit n u input i + u)

/-- **Keeping pace.** `u` is what a call produces at least when it stops for want of space. Every
block, the incomplete one at the end included, is read by a coder that has produced no more than it
must, and the last call completes the output. -/
structure KeepsPace (emit : List α → List β) (n u : Nat) (input : List α) : Prop where
  reads : ∀ i, i * n < input.length →
    (emit (input.take ((i + 1) * n)).dropLast).length < leastMade emit n u input i + u
  makes : (emit input).length ≤ leastMade emit n u input (input.length / n) + u

section Blocks

variable {n : Nat} {input used b : List α}

/-- A block that follows whole blocks, with all that is in front of it. -/
theorem append_block (hdvd : n ∣ used.length) (hb : b.length = n) (hpre : used ++ b <+: input) :
    used ++ b = input.take ((used.length / n + 1) * n) := by
  have hlen : (used.length / n + 1) * n = (used ++ b).length := by
    rw [Nat.succ_mul, Nat.div_mul_cancel hdvd, List.length_append, hb]
  rw [hlen]
  exact List.prefix_iff_eq_take.mp hpre

/-- The number of blocks goes up by one. -/
theorem length_append_block_div (hn : 0 < n) (hb : b.length = n) :
    (used ++ b).length / n = used.length / n + 1 := by
  rw [List.length_append, hb, Nat.add_div_right _ hn]

/-- There are as many of them as the input has. -/
theorem length_flatten_blocks_div (hn : 0 < n) (input : List α) :
    (blocks n input).flatten.length / n = input.length / n := by
  rw [length_flatten_blocks, Nat.mul_div_cancel _ hn]

/-- One block more than the full ones is all of the input. -/
theorem take_succ_div (hn : 0 < n) (input : List α) :
    input.take ((input.length / n + 1) * n) = input := by
  apply List.take_of_length_le
  rw [Nat.succ_mul]
  exact (Nat.lt_div_mul_add hn).le

end Blocks

namespace Rechunker

/-- The last call, on what is carried. -/
def last (c : Coder σ α β) (m : Nat) (r : Rechunker σ α β) : Answer σ β :=
  c.call r.state .noFlush r.carry m

/-- **A complete delivery.** No call fails, and after the last one all of the input has been read
and everything it determines is in the sink. -/
structure Complete (c : Coder σ α β) (n m : Nat) (s₀ : σ) (emit : List α → List β)
    (input : List α) (bufs : List (List α)) : Prop where
  pushesOk : (start (Coder.Ledger.start s₀)).PushesOk c.recording n m bufs
  status : (((start (Coder.Ledger.start s₀)).pushes c.recording n m bufs).last
    c.recording m).status = 0
  read : (((start (Coder.Ledger.start s₀)).pushes c.recording n m bufs).last
    c.recording m).next.used = input
  written : ((start (Coder.Ledger.start s₀)).pushes c.recording n m bufs).written
    ++ (((start (Coder.Ledger.start s₀)).pushes c.recording n m bufs).last
      c.recording m).produced = emit input

end Rechunker

namespace KeepsPace

variable {c : Coder σ α β} {n m width g : Nat} {s₀ s : σ} {emit : List α → List β}
  {input : List α} {made : List β}

/-- An output that no call stops for keeps pace. -/
theorem of_lt (mono : ∀ ⦃xs ys : List α⦄, xs <+: ys → emit xs <+: emit ys) {u : Nat}
    (hlt : (emit input).length < u) : KeepsPace emit n u input where
  reads i _ := by
    have hpre : (input.take ((i + 1) * n)).dropLast <+: input :=
      (List.dropLast_prefix _).trans (List.take_prefix ..)
    exact ((mono hpre).length_le.trans_lt hlt).trans_le (Nat.le_add_left ..)
  makes := hlt.le.trans (Nat.le_add_left ..)

section Paced

variable (keeps : KeepsPace emit n (stopAt m width g) input)
  (paced : c.Paced m s₀ input 1 width emit) (grouped : c.Grouped m s₀ input g)
  (accepts : c.Accepts m s₀ input) (hn : 0 < n) (hnm : n ≤ m) (hwm : width ≤ m)

include keeps paced grouped accepts hn hnm hwm

/-- **Step rule**: a block is read, and the coder has still produced what it must. -/
theorem block :
    Rechunker.BlockStep c n m input fun used s made => c.Reaches m s₀ input s used made
      ∧ leastMade emit n (stopAt m width g) input (used.length / n) ≤ made.length := by
  rintro used b s made hdvd hb hpre ⟨hs, hleast⟩
  have hle : b.length ≤ m := hb.trans_le hnm
  have hok := accepts hs hpre hle
  have hblock := append_block hdvd hb hpre
  have hne : b ≠ [] := List.ne_nil_of_length_pos (hb ▸ hn)
  have hfront : used.length / n * n < input.length := by
    have hlen := hpre.length_le
    rw [List.length_append, hb] at hlen
    rw [Nat.div_mul_cancel hdvd]
    omega
  have hread := keeps.reads _ hfront
  rw [← hblock, List.dropLast_append_of_ne_nil hne] at hread
  have hall := paced.reads grouped hwm hs hpre hle hok (by omega)
  have hnext := hs.call hpre hle hok
  rw [hall, List.take_length] at hnext
  refine ⟨hok, hnext, ?_⟩
  rw [length_append_block_div hn hb, leastMade, ← hblock]
  rcases paced.stops grouped hwm hs hpre hle hok with ⟨-, hmade⟩ | hstop
  · rw [← hmade]
    exact Nat.min_le_left ..
  · rw [List.length_append]
    omega

/-- **The last call** reads what is left and completes the output. -/
theorem rest
    (hs : c.Reaches m s₀ input s (blocks n input).flatten made)
    (hleast : leastMade emit n (stopAt m width g) input (input.length / n) ≤ made.length) :
    (c.call s .noFlush (Library.rest n input) m).status = 0
      ∧ (c.call s .noFlush (Library.rest n input) m).consumed = (Library.rest n input).length
      ∧ made ++ (c.call s .noFlush (Library.rest n input) m).produced = emit input := by
  have hcut := flatten_blocks hn input
  have hpre : (blocks n input).flatten ++ Library.rest n input <+: input := by rw [hcut]
  have hle : (Library.rest n input).length ≤ m := (length_rest_lt hn input).le.trans hnm
  have hok := accepts hs hpre hle
  have hread : (c.call s .noFlush (Library.rest n input) m).consumed
      = (Library.rest n input).length := by
    by_cases hnone : Library.rest n input = []
    · have hzero := c.consumed_le s .noFlush (Library.rest n input) m
      rw [hnone] at hzero ⊢
      exact Nat.le_zero.mp hzero
    · have hfront : input.length / n * n < input.length := by
        have hlen := congrArg List.length hcut
        have hpos := List.length_pos_iff.mpr hnone
        rw [List.length_append, length_flatten_blocks] at hlen
        omega
      have hshort := keeps.reads _ hfront
      rw [take_succ_div hn] at hshort
      refine paced.reads grouped hwm hs hpre hle hok ?_
      rw [← List.dropLast_append_of_ne_nil hnone, hcut]
      omega
  refine ⟨hok, hread, ?_⟩
  rcases paced.stops grouped hwm hs hpre hle hok with ⟨-, hmade⟩ | hstop
  · rw [hmade, hcut]
  · -- a call that stops has produced as much as is left of the output
    have hsound := paced.call_prefix hs hpre hle hok
    rw [hcut] at hsound
    refine hsound.eq_of_length_le ?_
    have hmakes := keeps.makes
    rw [List.length_append]
    omega

/-- **A run that keeps pace**: every block is read, and the last call completes the output. -/
theorem delivers
    {bufs : List (List α)} (hinput : bufs.flatten = input) :
    let r := (Rechunker.start s₀).pushes c n m bufs
    (Rechunker.start s₀ : Rechunker σ α β).PushesOk c n m bufs ∧ r.carry = Library.rest n input
      ∧ c.Reaches m s₀ input r.state (blocks n input).flatten r.written
      ∧ (r.last c m).status = 0 ∧ (r.last c m).consumed = (Library.rest n input).length
      ∧ r.written ++ (r.last c m).produced = emit input := by
  have hnothing : leastMade emit n (stopAt m width g) input (([] : List α).length / n)
      ≤ ([] : List β).length := by
    rw [List.length_nil, Nat.zero_div]
    exact Nat.zero_le 0
  obtain ⟨hok, hcarry, hreach, hleast⟩ := Rechunker.pushes_start_inv _
    (keeps.block paced grouped accepts hn hnm hwm) hn hinput ⟨.start, hnothing⟩
  rw [length_flatten_blocks_div hn] at hleast
  have hlast := keeps.rest paced grouped accepts hn hnm hwm hreach hleast
  rw [← hcarry] at hlast
  exact ⟨hok, hcarry, hreach, hlast.1, hcarry ▸ hlast.2.1, hlast.2.2⟩

/-- **Whatever keeps pace is delivered**, by every paced coder and however it is cut into
buffers. -/
theorem complete
    {bufs : List (List α)} (hinput : bufs.flatten = input) :
    Rechunker.Complete c n m s₀ emit input bufs := by
  obtain ⟨hok, hcarry, hreach, hstatus, hread, hmade⟩ := keeps.delivers paced.recording
    grouped.recording accepts.recording hn hnm hwm hinput
  refine ⟨hok, hstatus, ?_, hmade⟩
  show _ ++ List.take (Rechunker.last c.recording m _).consumed _ = input
  rw [(Coder.recording_reaches hreach).2.1, hread, hcarry, List.take_length, flatten_blocks hn]

end Paced

end KeepsPace

/-! ## The coder that stops as early as it may -/

/-- How many of the items behind `used` it takes to determine `target` items. -/
def leastRead (emit : List α → List β) (target : Nat) : List α → List α → Nat
  | _, [] => 0
  | used, x :: xs =>
    if target ≤ (emit used).length then 0 else leastRead emit target (used ++ [x]) xs + 1

section LeastRead

variable {emit : List α → List β} {target : Nat}

/-- They are no more than there are. -/
theorem leastRead_le (used xs : List α) : leastRead emit target used xs ≤ xs.length := by
  induction xs generalizing used with
  | nil => exact Nat.le_refl 0
  | cons x xs ih =>
    rw [leastRead]
    split_ifs
    · exact Nat.zero_le _
    · exact Nat.succ_le_succ (ih _)

/-- They are enough, if any are. -/
theorem le_leastRead {used xs : List α} (h : target ≤ (emit (used ++ xs)).length) :
    target ≤ (emit (used ++ xs.take (leastRead emit target used xs))).length := by
  induction xs generalizing used with
  | nil => exact h
  | cons x xs ih =>
    rw [leastRead]
    split_ifs with hnone
    · rw [List.take_zero, List.append_nil]
      exact hnone
    · rw [List.take_succ_cons, List.append_cons]
      rw [List.append_cons] at h
      exact ih h

/-- When it takes all of them, the others are not enough. -/
theorem lt_of_leastRead {used xs : List α} (hne : xs ≠ [])
    (hall : leastRead emit target used xs = xs.length) :
    (emit (used ++ xs.dropLast)).length < target := by
  induction xs generalizing used with
  | nil => exact absurd rfl hne
  | cons x xs ih =>
    rw [leastRead] at hall
    by_cases hnone : target ≤ (emit used).length
    · rw [if_pos hnone] at hall
      cases hall
    · rw [if_neg hnone] at hall
      cases xs with
      | nil =>
        rw [List.dropLast_singleton, List.append_nil]
        exact Nat.lt_of_not_le hnone
      | cons y ys =>
        rw [List.dropLast_cons_cons, List.append_cons]
        exact ih (List.cons_ne_nil y ys) (Nat.succ.inj hall)

end LeastRead

/-- A call that reads `read` items and produces `made`. -/
def Given.answer (s : Given α) (xs : List α) (made : List β) (read : Nat) : Answer (Given α) β where
  status := 0
  consumed := read
  produced := made
  next := { used := s.used ++ xs.take read, count := s.count + made.length }

namespace Coder

/-- The coder that produces everything when it has to. When it may stop it produces `u` items and
reads as little as that takes. -/
def lazy (emit : List α → List β) (width u : Nat) : Coder (Given α) α β where
  call s _ xs space :=
    let due := (emit (s.used ++ xs)).drop s.count
    if (emit (s.used ++ xs)).length + width ≤ s.count + space then
      s.answer xs (due.take space) xs.length
    else
      let made := due.take (min u space)
      s.answer xs made (leastRead emit (s.count + made.length) s.used xs)
  consumed_le s _ xs space := by
    dsimp only
    split_ifs
    · exact Nat.le_refl xs.length
    · exact leastRead_le s.used xs
  produced_le s _ xs space := by
    dsimp only
    split_ifs
    · exact List.length_take_le ..
    · exact (List.length_take_le ..).trans (Nat.min_le_right u space)
  counted_eq s _ xs space _ := by
    dsimp only
    split_ifs
    · rfl
    · rfl

/-- A lazy coder never fails. -/
theorem lazy_status (emit : List α → List β) (width u : Nat) (s : Given α) (mode : FlushMode)
    (xs : List α) (space : Nat) : ((lazy emit width u).call s mode xs space).status = 0 := by
  simp only [lazy]
  split_ifs
  · rfl
  · rfl

/-- What a lazy coder knows of its history. -/
structure Lazily (g : Nat) (emit : List α → List β) (s : Given α) (made : List β) : Prop where
  count : s.count = made.length
  sound : made <+: emit s.used
  dvd : g ∣ made.length

section Lazy

variable {m width g : Nat} {emit : List α → List β} {s : Given α} {input used : List α}
  {made : List β}

/-- So it accepts every input. -/
theorem lazy_accepts (width u : Nat) :
    (lazy emit width u).Accepts m Given.start input :=
  fun _ _ _ _ _ _ _ => lazy_status ..

/-- A call that has room for everything. -/
theorem lazy_of_fits (h : Lazily g emit s made) (mono : ∀ ⦃xs ys⦄, xs <+: ys → emit xs <+: emit ys)
    {xs : List α} (hfits : (emit (s.used ++ xs)).length + width ≤ made.length + m) {u : Nat} :
    ∃ rest, (lazy emit width u).call s .noFlush xs m = s.answer xs rest xs.length
      ∧ made ++ rest = emit (s.used ++ xs) := by
  obtain ⟨rest, hrest⟩ := h.sound.trans (mono (List.prefix_append s.used xs))
  have hlen : rest.length ≤ m := by
    rw [← hrest, List.length_append] at hfits
    omega
  refine ⟨rest, ?_, hrest⟩
  simp only [lazy, h.count, if_pos hfits]
  rw [← hrest, List.drop_left, List.take_of_length_le hlen]

/-- A call that stops: `stopAt` items are produced, as a beginning of what the items read
determine, and all items are read only if all are needed. -/
theorem lazy_of_stops (h : Lazily g emit s made) (emits : Emits g emit) (hgw : g ≤ width)
    (hwm : width ≤ m) {xs : List α}
    (hfull : made.length + m < (emit (s.used ++ xs)).length + width) :
    ∃ part read, (lazy emit width (stopAt m width g)).call s .noFlush xs m = s.answer xs part read
      ∧ part.length = stopAt m width g ∧ made ++ part <+: emit (s.used ++ xs.take read)
      ∧ (read = xs.length → xs ≠ [] →
        (emit (s.used ++ xs.dropLast)).length < made.length + stopAt m width g) := by
  obtain ⟨rest, hrest⟩ := h.sound.trans (emits.mono (List.prefix_append s.used xs))
  have hle := @stopAt_le m width g hgw hwm
  -- what is due comes in groups, so that there is enough of it
  have hdue : stopAt m width g ≤ rest.length := by
    have hdvd := emits.dvd (s.used ++ xs)
    rw [← hrest, List.length_append] at hdvd hfull
    exact stopAt_le_of_dvd hwm ((Nat.dvd_add_right h.dvd).mp hdvd) (by omega)
  have hlen : (rest.take (stopAt m width g)).length = stopAt m width g :=
    List.length_take_of_le hdue
  have hpart : made ++ rest.take (stopAt m width g) <+: emit (s.used ++ xs) := by
    rw [← hrest, List.prefix_append_right_inj]
    exact List.take_prefix ..
  have hmade : (made ++ rest.take (stopAt m width g)).length = made.length + stopAt m width g := by
    rw [List.length_append, hlen]
  refine ⟨rest.take (stopAt m width g),
    leastRead emit (made.length + stopAt m width g) s.used xs, ?_, hlen, ?_, ?_⟩
  · simp only [lazy, h.count, if_neg (Nat.not_le.mpr hfull)]
    rw [← hrest, List.drop_left, Nat.min_eq_left hle, hlen]
  · refine List.prefix_of_prefix_length_le hpart
      (emits.mono (append_take_follows (List.prefix_refl _) _)) ?_
    rw [hmade]
    exact le_leastRead (hmade ▸ hpart.length_le)
  · intro hall hne
    exact lt_of_leastRead hne hall

variable (emits : Emits g emit) (hg : 0 < g) (hgw : g ≤ width) (hwm : width ≤ m)

include emits hg hgw hwm

/-- **Step rule**: a call keeps to its history, produces `stopAt` items at most, and reads its offer
only when everything but the last item is too little to stop for. -/
theorem Lazily.call (h : Lazily g emit s made) (xs : List α) :
    let a := (lazy emit width (stopAt m width g)).call s .noFlush xs m
    a.next.used = s.used ++ xs.take a.consumed ∧ Lazily g emit a.next (made ++ a.produced)
      ∧ a.produced.length ≤ stopAt m width g
      ∧ (a.consumed = xs.length → xs ≠ [] →
        (emit (s.used ++ xs.dropLast)).length < made.length + stopAt m width g) := by
  have hroom := @lt_stopAt m width g hg
  by_cases hfits : (emit (s.used ++ xs)).length + width ≤ made.length + m
  · obtain ⟨rest, hcall, hall⟩ := lazy_of_fits h emits.mono hfits (u := stopAt m width g)
    have hlen := congrArg List.length hall
    rw [List.length_append] at hlen
    have hnext : s.used ++ xs.take xs.length = s.used ++ xs := by rw [List.take_length]
    simp only [hcall, Given.answer]
    refine ⟨trivial, ⟨?_, ?_, ?_⟩, by omega, fun _ _ => ?_⟩
    · rw [h.count, List.length_append]
    · rw [hnext, hall]
    · rw [hall]
      exact emits.dvd _
    · have hle := (emits.mono ((List.prefix_append_right_inj s.used).mpr
        (List.dropLast_prefix xs))).length_le
      omega
  · obtain ⟨part, read, hcall, hlen, hsound, hneed⟩ :=
      lazy_of_stops h emits hgw hwm (Nat.lt_of_not_le hfits)
    simp only [hcall, Given.answer]
    refine ⟨trivial, ⟨?_, hsound, ?_⟩, hlen.le, hneed⟩
    · rw [h.count, List.length_append]
    · rw [List.length_append, hlen]
      exact Nat.dvd_add h.dvd (Nat.dvd_mul_left ..)

/-- The state of a lazy coder is its history. -/
theorem lazy_reaches
    (h : (lazy emit width (stopAt m width g)).Reaches m Given.start input s used made) :
    s.used = used ∧ Lazily g emit s made := by
  induction h with
  | start => exact ⟨rfl, rfl, List.nil_prefix, Nat.dvd_zero g⟩
  | @call s used made xs hs hpre hlen hok ih =>
    obtain ⟨rfl, hlazily⟩ := ih
    obtain ⟨hused, hnext, -⟩ := hlazily.call emits hg hgw hwm xs
    exact ⟨hused, hnext⟩

/-- **A lazy coder is paced.** -/
theorem lazy_paced :
    (lazy emit width (stopAt m width g)).Paced m Given.start input 1 width emit where
  mono := emits.mono
  sound _ _ _ hs := by
    obtain ⟨rfl, hlazily⟩ := lazy_reaches emits hg hgw hwm hs
    exact hlazily.sound
  stop := by
    intro s used made hs xs _ _ _
    obtain ⟨rfl, h⟩ := lazy_reaches emits hg hgw hwm hs
    by_cases hfits : (emit (s.used ++ xs)).length + width ≤ made.length + m
    · obtain ⟨rest, hcall, hall⟩ := lazy_of_fits h emits.mono hfits (u := stopAt m width g)
      rw [hcall]
      refine Or.inl ⟨by rw [Nat.mod_one]; rfl, ?_⟩
      rw [Given.answer, List.take_length, hall]
    · obtain ⟨part, read, hcall, hlen, -, -⟩ :=
        lazy_of_stops h emits hgw hwm (Nat.lt_of_not_le hfits)
      rw [hcall]
      refine Or.inr ⟨Nat.one_dvd _, ?_⟩
      rw [Given.answer, hlen]
      exact lt_stopAt hg

/-- A lazy coder produces groups. -/
theorem lazy_grouped :
    (lazy emit width (stopAt m width g)).Grouped m Given.start input g :=
  fun _ _ _ hs => (lazy_reaches emits hg hgw hwm hs).2.dvd

end Lazy

end Coder

/-! ## Only what keeps pace is delivered -/

/-- A lazy coder that has read the blocks `offered`: it has produced no more than it must, and so
these blocks keep pace. -/
structure ReadSoFar (emit : List α → List β) (n u g : Nat) (input offered : List α)
    (l : Coder.Ledger (Given α) α β) (made : List β) : Prop where
  used : l.used = offered
  state : l.state.used = offered
  lazily : Coder.Lazily g emit l.state made
  least : made.length ≤ leastMade emit n u input (offered.length / n)
  reads : ∀ i, (i + 1) * n ≤ offered.length →
    (emit (input.take ((i + 1) * n)).dropLast).length < leastMade emit n u input i + u

section Lazy

variable {emit : List α → List β} {n m width g : Nat} {input offered : List α}
  {l : Coder.Ledger (Given α) α β} {made : List β}

/-- A lazy coder that has not read all it was offered never catches up. -/
theorem length_used_lt (h : l.used.length < offered.length) (c : Coder (Given α) α β)
    (xs : List α) :
    (c.recording.call l .noFlush xs m).next.used.length < (offered ++ xs).length := by
  show (l.used ++ xs.take _).length < _
  have hle := List.length_take_le' (c.recording.call l .noFlush xs m).consumed xs
  rw [List.length_append, List.length_append]
  exact Nat.add_lt_add_of_lt_of_le h hle

variable (emits : Emits g emit) (hg : 0 < g) (hgw : g ≤ width) (hwm : width ≤ m) (hn : 0 < n)

include emits hg hgw hwm hn

/-- **A block** is read in full, and then it keeps pace, or an item is left. -/
theorem ReadSoFar.block (h : ReadSoFar emit n (stopAt m width g) g input offered l made)
    {b : List α} (hdvd : n ∣ offered.length) (hb : b.length = n) (hpre : offered ++ b <+: input) :
    let a := (Coder.lazy emit width (stopAt m width g)).recording.call l .noFlush b m
    ReadSoFar emit n (stopAt m width g) g input (offered ++ b) a.next (made ++ a.produced)
      ∨ a.next.used.length < (offered ++ b).length := by
  intro a
  obtain ⟨hstate, hlazily, hmade, hneed⟩ := h.lazily.call emits hg hgw hwm b
  have hle := (Coder.lazy emit width (stopAt m width g)).consumed_le l.state .noFlush b m
  by_cases hall : a.consumed = b.length
  · have hread : b.take a.consumed = b := by rw [hall, List.take_length]
    have hblock := append_block hdvd hb hpre
    have hnext : a.next.state.used = offered ++ b := by rw [← h.state, ← hread]; exact hstate
    refine Or.inl ⟨?_, hnext, hlazily, ?_, ?_⟩
    · show l.used ++ b.take a.consumed = offered ++ b
      rw [hread, h.used]
    · have hsound := hlazily.sound.length_le
      have hleast := h.least
      rw [length_append_block_div hn hb, leastMade, ← hblock]
      rw [← hnext]
      refine Nat.le_min.mpr ⟨hsound, ?_⟩
      rw [List.length_append]
      exact Nat.add_le_add hleast hmade
    · intro i hi
      rw [List.length_append, hb, Nat.succ_mul] at hi
      by_cases hlast : i = offered.length / n
      · have hne : b ≠ [] := List.ne_nil_of_length_pos (hb ▸ hn)
        have hshort := hneed hall hne
        rw [h.state] at hshort
        rw [hlast, ← hblock, List.dropLast_append_of_ne_nil hne]
        exact hshort.trans_le (Nat.add_le_add_right h.least _)
      · refine h.reads i ?_
        obtain ⟨q, hq⟩ := hdvd
        rw [hq, Nat.mul_div_cancel_left q hn] at hlast
        rw [hq, Nat.mul_comm] at hi ⊢
        have hle' : i ≤ q := Nat.le_of_mul_le_mul_left (Nat.le_of_add_le_add_right hi) hn
        exact Nat.mul_le_mul_left n (by omega)
  · refine Or.inr ?_
    show (l.used ++ b.take a.consumed).length < _
    have hless : a.consumed < b.length := Nat.lt_of_le_of_ne hle hall
    rw [List.length_append, List.length_append, List.length_take, h.used]
    omega

/-- **The last call** of a lazy coder that has read all blocks shows the rest, when nothing is
missing behind it. -/
theorem ReadSoFar.keepsPace
    (h : ReadSoFar emit n (stopAt m width g) g input (blocks n input).flatten l made)
    (hread : ((Coder.lazy emit width (stopAt m width g)).recording.call l .noFlush (rest n input)
      m).next.used = input)
    (hmade : made ++ ((Coder.lazy emit width (stopAt m width g)).recording.call l .noFlush
      (rest n input) m).produced = emit input) :
    KeepsPace emit n (stopAt m width g) input := by
  have hcut := flatten_blocks hn input
  have hleast := h.least
  rw [length_flatten_blocks_div hn] at hleast
  obtain ⟨-, -, hle, hneed⟩ := h.lazily.call emits hg hgw hwm (rest n input)
  constructor
  · intro i hi
    by_cases hfull : (i + 1) * n ≤ (blocks n input).flatten.length
    · exact h.reads i hfull
    · -- the incomplete block, which the last call has read
      have hcount : i = input.length / n := by
        rw [length_flatten_blocks] at hfull
        have hlt := Nat.lt_of_mul_lt_mul_right (Nat.lt_of_not_le hfull)
        have hend : input.length < (input.length / n + 1) * n := by
          rw [Nat.succ_mul]
          exact Nat.lt_div_mul_add hn
        have hlt' := Nat.lt_of_mul_lt_mul_right (hi.trans hend)
        omega
      rw [hcount] at hi
      have hne : rest n input ≠ [] := by
        intro hnil
        have hlen := length_flatten_blocks n input
        rw [hnil, List.append_nil] at hcut
        rw [hcut] at hlen
        exact absurd hlen (Nat.ne_of_gt hi)
      have hall : (rest n input).take _ = rest n input :=
        List.append_cancel_left (hread.trans (h.used ▸ hcut).symm)
      have hlen := (Coder.consumed_le ..).antisymm ((List.take_eq_self_iff _).mp hall)
      have hshort := hneed hlen hne
      rw [h.state, ← List.dropLast_append_of_ne_nil hne, hcut] at hshort
      rw [hcount, take_succ_div hn]
      exact hshort.trans_le (Nat.add_le_add_right hleast _)
  · rw [← hmade, List.length_append]
    exact Nat.add_le_add hleast hle

/-- **Only what keeps pace is delivered**: a lazy coder that reads and delivers everything shows
it. -/
theorem keepsPace_of_complete {bufs : List (List α)} (hinput : bufs.flatten = input)
    (complete : Rechunker.Complete (Coder.lazy emit width (stopAt m width g)) n m Given.start emit
      input bufs) : KeepsPace emit n (stopAt m width g) input := by
  have hstart : ReadSoFar emit n (stopAt m width g) g input [] (Coder.Ledger.start Given.start)
      [] :=
    { used := rfl
      state := rfl
      lazily := ⟨rfl, List.nil_prefix, Nat.dvd_zero g⟩
      least := Nat.zero_le _
      reads := by
        intro i hi
        rw [Nat.succ_mul, List.length_nil] at hi
        omega }
  have hblock : Rechunker.BlockStep (Coder.lazy emit width (stopAt m width g)).recording n m input
      fun offered l made => ReadSoFar emit n (stopAt m width g) g input offered l made
        ∨ l.used.length < offered.length := by
    rintro offered b l made hdvd hb hpre (hread | hleft)
    · exact ⟨Coder.lazy_status .., hread.block emits hg hgw hwm hn hdvd hb hpre⟩
    · exact ⟨Coder.lazy_status .., Or.inr (length_used_lt hleft _ _)⟩
  obtain ⟨-, hcarry, hinv⟩ := Rechunker.pushes_start_inv _ hblock hn hinput (Or.inl hstart)
  have hlast := complete.read
  have hmade := complete.written
  simp only [Rechunker.last, hcarry] at hlast hmade
  rcases hinv with hread | hleft
  · exact hread.keepsPace emits hg hgw hwm hn hlast hmade
  · -- what was left is still missing at the end
    have hmissing := length_used_lt (m := m) hleft (Coder.lazy emit width (stopAt m width g))
      (rest n input)
    rw [hlast, flatten_blocks hn] at hmissing
    exact absurd hmissing (Nat.lt_irrefl _)

end Lazy

end IQzip.Library
