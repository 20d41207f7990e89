import Mathlib.Data.List.Infix
import Mathlib.Tactic.Common

/-! # Streaming coders

A streaming coder is called over and over with some input and some output space. Each call reports
a status, how much of the input it used and what it produced; it may leave input unread and hold
output back. `Reaches` is the set of states it can be driven into, with everything it used and
produced on the way. These properties describe the coders of this kind:

* `Accepts`: calls on the parts of an input return zero.
* `Draws`: a call stops when the input or the output space is used up.
* `Paced`: moreover, what has been produced depends on what has been used only.
* `Feeds`: a call uses everything it is offered, and cutting the input differently changes
  nothing.
* `Finishes`: at the end of the input, flushing calls go on with the output until it is
  complete. -/

namespace IQzip.Library

universe u v w

/-- What a call may do with the input it holds: keep some of it, or finish. -/
inductive FlushMode
  | noFlush
  | flush
  deriving DecidableEq, Repr

/-- What a call reports, and the state after it. `counted` is what it adds to the count of the
output. -/
structure Answer (σ : Type u) (β : Type v) where
  status : Int
  consumed : Nat
  produced : List β
  next : σ
  counted : Nat := produced.length

/-- A streaming coder: it never uses more than it is offered and never produces more than there is
space for. A call that succeeds counts what it produced; one that fails may count anything. -/
structure Coder (σ : Type u) (α : Type v) (β : Type w) where
  call : σ → FlushMode → List α → Nat → Answer σ β
  consumed_le : ∀ s mode xs space, (call s mode xs space).consumed ≤ xs.length
  produced_le : ∀ s mode xs space, (call s mode xs space).produced.length ≤ space
  counted_eq : ∀ s mode xs space, (call s mode xs space).status = 0 →
    (call s mode xs space).counted = (call s mode xs space).produced.length := by intros; rfl

namespace Coder

variable {σ : Type u} {α : Type v} {β : Type w}

/-! ## Histories -/

/-- The histories of a coder on `input`: the states reached from `s₀` by non-flushing calls that
return zero, with what the calls used and produced in total. Each call has space `m` and is
offered at most `m` items, those of `input` that follow what has been used. -/
inductive Reaches (c : Coder σ α β) (m : Nat) (s₀ : σ) (input : List α) :
    σ → List α → List β → Prop
  | start : Reaches c m s₀ input s₀ [] []
  | call {s : σ} {used : List α} {made : List β} {xs : List α} :
      Reaches c m s₀ input s used made → used ++ xs <+: input → xs.length ≤ m →
      (c.call s .noFlush xs m).status = 0 →
      Reaches c m s₀ input (c.call s .noFlush xs m).next
        (used ++ xs.take (c.call s .noFlush xs m).consumed)
        (made ++ (c.call s .noFlush xs m).produced)

/-- A part of what follows still follows. -/
theorem append_take_follows {input used xs : List α} (h : used ++ xs <+: input) (k : Nat) :
    used ++ xs.take k <+: input :=
  ((List.prefix_append_right_inj used).mpr (List.take_prefix ..)).trans h

/-- What a history has used is a part of the input. -/
theorem Reaches.used_prefix {c : Coder σ α β} {m : Nat} {s₀ s : σ} {input used : List α}
    {made : List β} (h : c.Reaches m s₀ input s used made) : used <+: input := by
  cases h with
  | start => exact List.nil_prefix
  | call _ hpre _ _ => exact append_take_follows hpre _

/-- No call of a history on `input` fails. -/
def Accepts (c : Coder σ α β) (m : Nat) (s₀ : σ) (input : List α) : Prop :=
  ∀ ⦃s used made⦄, c.Reaches m s₀ input s used made → ∀ ⦃xs⦄, used ++ xs <+: input →
    xs.length ≤ m → (c.call s .noFlush xs m).status = 0

/-- **Drawing.** A call uses groups of `grain` items only; it ends with all complete groups used, or
with less than `width` of the output space left. -/
def Draws (c : Coder σ α β) (m : Nat) (s₀ : σ) (input : List α) (grain width : Nat) : Prop :=
  ∀ ⦃s used made⦄, c.Reaches m s₀ input s used made → ∀ ⦃xs⦄, used ++ xs <+: input →
    xs.length ≤ m → (c.call s .noFlush xs m).status = 0 →
    (c.call s .noFlush xs m).consumed = xs.length - xs.length % grain
      ∨ (grain ∣ (c.call s .noFlush xs m).consumed
        ∧ m < (c.call s .noFlush xs m).produced.length + width)

/-- No history on `input` produces more than `bound` items. -/
def MakesAtMost (c : Coder σ α β) (m : Nat) (s₀ : σ) (input : List α) (bound : Nat) : Prop :=
  ∀ ⦃s used made⦄, c.Reaches m s₀ input s used made → made.length ≤ bound

/-- A larger bound holds too. -/
theorem MakesAtMost.mono {c : Coder σ α β} {m bound bound' : Nat} {s₀ : σ} {input : List α}
    (makes : c.MakesAtMost m s₀ input bound) (hle : bound ≤ bound') :
    c.MakesAtMost m s₀ input bound' := fun _ _ _ hs => (makes hs).trans hle

/-- **Pacing.** `emit xs` is what the input `xs` determines. A call uses groups of `grain` items
only; it ends with all complete groups used and everything determined by them produced, or with
less than `width` of the output space left. -/
structure Paced (c : Coder σ α β) (m : Nat) (s₀ : σ) (input : List α) (grain width : Nat)
    (emit : List α → List β) : Prop where
  mono : ∀ ⦃xs ys⦄, xs <+: ys → emit xs <+: emit ys
  sound : ∀ ⦃s used made⦄, c.Reaches m s₀ input s used made → made <+: emit used
  stop : ∀ ⦃s used made⦄, c.Reaches m s₀ input s used made → ∀ ⦃xs⦄, used ++ xs <+: input →
    xs.length ≤ m → (c.call s .noFlush xs m).status = 0 →
    ((c.call s .noFlush xs m).consumed = xs.length - xs.length % grain
        ∧ made ++ (c.call s .noFlush xs m).produced
          = emit (used ++ xs.take (c.call s .noFlush xs m).consumed))
      ∨ (grain ∣ (c.call s .noFlush xs m).consumed
        ∧ m < (c.call s .noFlush xs m).produced.length + width)

/-! ### A beginning of the input -/

section Beginning

variable {c : Coder σ α β} {m : Nat} {s₀ : σ} {input whole : List α}

/-- A history on a beginning of the input is one on the input. -/
theorem Reaches.of_prefix {s : σ} {used : List α} {made : List β}
    (h : c.Reaches m s₀ input s used made) (hpre : input <+: whole) :
    c.Reaches m s₀ whole s used made := by
  induction h with
  | start => exact .start
  | call _ hfollows hlen hok ih => exact ih.call (hfollows.trans hpre) hlen hok

/-- What is accepted as a whole is accepted up to any place. -/
theorem Accepts.of_prefix (accepts : c.Accepts m s₀ whole) (hpre : input <+: whole) :
    c.Accepts m s₀ input :=
  fun _ _ _ hs _ hfollows hlen => accepts (hs.of_prefix hpre) (hfollows.trans hpre) hlen

/-- And a pace kept over the whole input is kept up to there. -/
theorem Paced.of_prefix {grain width : Nat} {emit : List α → List β}
    (paced : c.Paced m s₀ whole grain width emit) (hpre : input <+: whole) :
    c.Paced m s₀ input grain width emit where
  mono := paced.mono
  sound := fun _ _ _ hs => paced.sound (hs.of_prefix hpre)
  stop := fun _ _ _ hs _ hfollows hlen hok =>
    paced.stop (hs.of_prefix hpre) (hfollows.trans hpre) hlen hok

end Beginning

/-- Every call uses complete groups. -/
theorem Draws.grain_dvd {c : Coder σ α β} {m grain width : Nat} {s₀ s : σ}
    {input used xs : List α} {made : List β} (draws : c.Draws m s₀ input grain width)
    (hs : c.Reaches m s₀ input s used made) (hpre : used ++ xs <+: input) (hlen : xs.length ≤ m)
    (hok : (c.call s .noFlush xs m).status = 0) :
    grain ∣ (c.call s .noFlush xs m).consumed := by
  rcases draws hs hpre hlen hok with hused | ⟨hdvd, -⟩
  · rw [hused]
    exact Nat.dvd_sub_mod xs.length
  · exact hdvd

namespace Paced

variable {c : Coder σ α β} {m grain width : Nat} {s₀ s : σ} {emit : List α → List β}
  {input used xs : List α} {made : List β}

/-- **A paced coder draws**: what it has produced does not matter for that. -/
theorem draws (paced : c.Paced m s₀ input grain width emit) : c.Draws m s₀ input grain width :=
  fun _ _ _ hs _ hpre hlen hok => (paced.stop hs hpre hlen hok).imp_left And.left

/-- It never produces more than the input determines. -/
theorem makesAtMost (paced : c.Paced m s₀ input grain width emit) :
    c.MakesAtMost m s₀ input (emit input).length := fun _ _ _ hs =>
  ((paced.sound hs).trans (paced.mono hs.used_prefix)).length_le

/-- What a call has produced in the end is determined by any input that goes on from what it
used. -/
theorem call_prefix (paced : c.Paced m s₀ input grain width emit)
    (hs : c.Reaches m s₀ input s used made) (hpre : used ++ xs <+: input) (hlen : xs.length ≤ m)
    (hok : (c.call s .noFlush xs m).status = 0) :
    made ++ (c.call s .noFlush xs m).produced <+: emit (used ++ xs) := by
  have hsound := paced.sound (hs.call hpre hlen hok)
  exact hsound.trans (paced.mono (append_take_follows (List.prefix_refl _) _))

end Paced

/-! ## Coders that take everything -/

/-- **Feeding.** A call uses all it is offered; `feed` says what it does, and gives the same for
every cut of the input. A flushing call feeds what it is offered and then finishes. -/
structure Feeds (c : Coder σ α β) (m : Nat) (s₀ : σ) (input : List α)
    (feed : σ → List α → σ × List β) (finish : σ → List β) : Prop where
  append : ∀ s xs ys, feed s (xs ++ ys)
    = ((feed (feed s xs).1 ys).1, (feed s xs).2 ++ (feed (feed s xs).1 ys).2)
  call_noFlush : ∀ ⦃s used made⦄, c.Reaches m s₀ input s used made → ∀ ⦃xs⦄,
    used ++ xs <+: input → xs.length ≤ m → c.call s .noFlush xs m
      = { status := 0, consumed := xs.length, produced := (feed s xs).2, next := (feed s xs).1 }
  call_flush : ∀ ⦃s used made⦄, c.Reaches m s₀ input s used made → ∀ ⦃xs⦄,
    used ++ xs = input → xs.length ≤ m → (c.call s .flush xs m).status = 0
      ∧ (c.call s .flush xs m).produced = (feed s xs).2 ++ finish (feed s xs).1

namespace Feeds

variable {c : Coder σ α β} {m : Nat} {s₀ : σ} {input : List α} {feed : σ → List α → σ × List β}
  {finish : σ → List β}

/-- The state after a history, and its output, are those of one feed of everything. -/
theorem feed_of_reaches (feeds : c.Feeds m s₀ input feed finish) {s : σ} {used : List α}
    {made : List β} (hs : c.Reaches m s₀ input s used made) (xs : List α) :
    feed s₀ (used ++ xs) = ((feed s xs).1, made ++ (feed s xs).2) := by
  -- on the history: the last call is one more feed
  induction hs generalizing xs with
  | start => simp
  | @call s used made ys hs hpre hlen _ ih =>
    rw [feeds.call_noFlush hs hpre hlen, List.take_length, List.append_assoc, ih, feeds.append,
      List.append_assoc]

/-- **A feeding coder is paced**, with nothing left unread and no space short. -/
theorem paced (feeds : c.Feeds m s₀ input feed finish) :
    c.Paced m s₀ input 1 1 fun xs => (feed s₀ xs).2 where
  mono := by
    rintro xs _ ⟨ys, rfl⟩
    rw [feeds.append]
    exact List.prefix_append ..
  sound := by
    intro s used made hs
    have hall := feeds.feed_of_reaches hs []
    rw [List.append_nil] at hall
    rw [hall]
    exact List.prefix_append ..
  stop := by
    intro s used made hs xs hpre hlen _
    refine Or.inl ?_
    rw [feeds.call_noFlush hs hpre hlen, List.take_length, feeds.feed_of_reaches hs]
    simp [Nat.mod_one]

/-- No call of it fails. -/
theorem accepts (feeds : c.Feeds m s₀ input feed finish) : c.Accepts m s₀ input := by
  intro s used made hs xs hpre hlen
  rw [feeds.call_noFlush hs hpre hlen]

/-- **Everything a feeding coder produces**, up to and including the flushing call on the end of
the input, depends on the input only. -/
theorem made_append_flush (feeds : c.Feeds m s₀ input feed finish) {s : σ} {used : List α}
    {made : List β} (hs : c.Reaches m s₀ input s used made) {xs : List α}
    (hall : used ++ xs = input) (hlen : xs.length ≤ m) :
    made ++ (c.call s .flush xs m).produced = (feed s₀ input).2 ++ finish (feed s₀ input).1 := by
  rw [(feeds.call_flush hs hall hlen).2, ← hall, feeds.feed_of_reaches hs, List.append_assoc]

end Feeds

/-! ## Finishing -/

/-- The states at the end of the input: those of histories that have used all of it, and those after
more flushing calls on nothing, with everything produced so far. -/
inductive Ends (c : Coder σ α β) (m : Nat) (s₀ : σ) (input : List α) : σ → List β → Prop
  | used {s : σ} {made : List β} : Reaches c m s₀ input s input made → Ends c m s₀ input s made
  | flush {s : σ} {made : List β} : Ends c m s₀ input s made →
      Ends c m s₀ input (c.call s .flush [] m).next (made ++ (c.call s .flush [] m).produced)

/-- **Finishing.** `coded` is everything the input comes to: at the end of the input a part of it
has been produced, and a flushing call returns zero and goes on with it as far as there is
space. -/
structure Finishes (c : Coder σ α β) (m : Nat) (s₀ : σ) (input : List α) (coded : List β) :
    Prop where
  sound : ∀ ⦃s made⦄, c.Reaches m s₀ input s input made → made <+: coded
  status : ∀ ⦃s made⦄, c.Ends m s₀ input s made → (c.call s .flush [] m).status = 0
  flush : ∀ ⦃s made⦄, c.Ends m s₀ input s made →
    made ++ (c.call s .flush [] m).produced = coded.take (made.length + m)

/-- A flushing call at the end of the input would produce nothing more. -/
def Drained (c : Coder σ α β) (m : Nat) (s : σ) : Prop := (c.call s .flush [] m).produced = []

namespace Finishes

variable {c : Coder σ α β} {m : Nat} {s₀ s : σ} {input : List α} {coded made : List β}

/-- What has been produced is a part of everything. -/
theorem made_prefix (finishes : c.Finishes m s₀ input coded) (h : c.Ends m s₀ input s made) :
    made <+: coded := by
  cases h with
  | used hs => exact finishes.sound hs
  | flush h =>
    rw [finishes.flush h]
    exact List.take_prefix ..

/-- **A coder is drained exactly when everything has been produced.** -/
theorem drained_iff (finishes : c.Finishes m s₀ input coded) (hm : 0 < m)
    (h : c.Ends m s₀ input s made) : c.Drained m s ↔ made = coded := by
  obtain ⟨rest, rfl⟩ := finishes.made_prefix h
  have hmade := finishes.flush h
  rw [List.take_append, List.take_of_length_le (Nat.le_add_right ..), List.append_cancel_left_eq,
    Nat.add_sub_cancel_left] at hmade
  rw [Drained, hmade, List.take_eq_nil_iff, List.self_eq_append_right]
  constructor
  · rintro (hzero | hrest)
    · omega
    · exact hrest
  · exact Or.inr

end Finishes

/-! ## Whole groups -/

/-- The coder that is offered whole groups of `g` items only. -/
def whole (g : Nat) (c : Coder σ α β) : Coder σ α β where
  call s mode xs space := c.call s mode (xs.take (xs.length - xs.length % g)) space
  consumed_le _ _ _ _ := (c.consumed_le ..).trans (List.length_take_le' ..)
  produced_le _ _ _ _ := c.produced_le ..
  counted_eq _ _ _ _ := c.counted_eq _ _ _ _

section Whole

variable {c : Coder σ α β} {m g : Nat} {s₀ s : σ} {input used : List α} {made : List β}

/-- A history in whole groups is a history. -/
theorem whole_reaches (h : (c.whole g).Reaches m s₀ input s used made) :
    c.Reaches m s₀ input s used made := by
  induction h with
  | start => exact .start
  | @call s used made xs _ hpre hlen hok ih =>
    have hnext := ih.call (append_take_follows hpre _) ((List.length_take_le' ..).trans hlen) hok
    -- what is used of the groups is used of the whole offer
    rw [List.take_take, Nat.min_eq_left ((c.consumed_le ..).trans (List.length_take_le ..))]
      at hnext
    exact hnext

/-- Whole groups are accepted when all parts are. -/
theorem Accepts.whole (accepts : c.Accepts m s₀ input) : (c.whole g).Accepts m s₀ input :=
  fun _ _ _ hs _ hpre hlen => accepts (whole_reaches hs) (append_take_follows hpre _)
    ((List.length_take_le' ..).trans hlen)

/-- **A coder that takes all of its groups** is paced by groups. -/
theorem Paced.whole {width : Nat} {emit : List α → List β}
    (paced : c.Paced m s₀ input 1 width emit)
    (htakes : ∀ s xs, (c.call s .noFlush xs m).consumed = xs.length) :
    (c.whole g).Paced m s₀ input g width emit where
  mono := paced.mono
  sound _ _ _ hs := paced.sound (whole_reaches hs)
  stop := by
    intro s used made hs xs hpre hlen hok
    have hused : ((c.whole g).call s .noFlush xs m).consumed = xs.length - xs.length % g := by
      rw [Coder.whole, htakes, List.length_take, Nat.min_eq_left (Nat.sub_le ..)]
    rcases paced.stop (whole_reaches hs) (append_take_follows hpre _)
      ((List.length_take_le' ..).trans hlen) hok with ⟨-, hmade⟩ | ⟨-, hfull⟩
    · rw [htakes, List.take_length] at hmade
      refine Or.inl ⟨hused, ?_⟩
      rw [hused]
      exact hmade
    · exact Or.inr ⟨by rw [hused]; exact Nat.dvd_sub_mod xs.length, hfull⟩

/-- An end in whole groups is an end. -/
theorem whole_ends (h : (c.whole g).Ends m s₀ input s made) : c.Ends m s₀ input s made := by
  induction h with
  | used hs => exact .used (whole_reaches hs)
  | flush _ ih => exact ih.flush

/-- Offering whole groups does not change how a coder finishes. -/
theorem Finishes.whole {coded : List β} (finishes : c.Finishes m s₀ input coded) :
    (c.whole g).Finishes m s₀ input coded where
  sound _ _ hs := finishes.sound (whole_reaches hs)
  status _ _ hs := finishes.status (whole_ends hs)
  flush _ _ hs := finishes.flush (whole_ends hs)

end Whole

/-! ## Recording -/

/-- The state of a coder, with everything it used and produced so far. -/
structure Ledger (σ : Type u) (α : Type v) (β : Type w) where
  state : σ
  used : List α
  made : List β

/-- The coder that keeps a ledger of its calls and is otherwise the same. -/
def recording (c : Coder σ α β) : Coder (Ledger σ α β) α β where
  call l mode xs space :=
    let a := c.call l.state mode xs space
    { status := a.status
      consumed := a.consumed
      produced := a.produced
      next :=
        { state := a.next
          used := l.used ++ xs.take a.consumed
          made := l.made ++ a.produced }
      counted := a.counted }
  consumed_le l mode xs space := c.consumed_le l.state mode xs space
  produced_le l mode xs space := c.produced_le l.state mode xs space
  counted_eq l mode xs space := c.counted_eq l.state mode xs space

/-- A ledger with no entries. -/
def Ledger.start (s₀ : σ) : Ledger σ α β := { state := s₀, used := [], made := [] }

section Recording

variable {c : Coder σ α β} {m : Nat} {s₀ : σ} {input used : List α} {made : List β}
  {l : Ledger σ α β}

/-- **The ledger is the history.** -/
theorem recording_reaches (h : c.recording.Reaches m (Ledger.start s₀) input l used made) :
    c.Reaches m s₀ input l.state used made ∧ l.used = used ∧ l.made = made := by
  induction h with
  | start => exact ⟨.start, rfl, rfl⟩
  | call _ hpre hlen hok ih =>
    obtain ⟨hs, rfl, rfl⟩ := ih
    exact ⟨hs.call hpre hlen hok, rfl, rfl⟩

/-- Keeping a ledger does not make a call fail. -/
theorem Accepts.recording (accepts : c.Accepts m s₀ input) :
    c.recording.Accepts m (Ledger.start s₀) input :=
  fun _ _ _ hs _ hpre hlen => accepts (recording_reaches hs).1 hpre hlen

/-- Keeping a ledger does not change the pace. -/
theorem Paced.recording {grain width : Nat} {emit : List α → List β}
    (paced : c.Paced m s₀ input grain width emit) :
    c.recording.Paced m (Ledger.start s₀) input grain width emit where
  mono := paced.mono
  sound _ _ _ hs := paced.sound (recording_reaches hs).1
  stop _ _ _ hs _ hpre hlen hok := paced.stop (recording_reaches hs).1 hpre hlen hok

end Recording

end Coder

end IQzip.Library
