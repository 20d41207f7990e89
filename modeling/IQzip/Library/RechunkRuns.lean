import IQzip.Library.Rechunk

/-! # Runs of a rechunker with any coder

Nothing is assumed of the coder here. `pushesOk_iff` says that buffers which all go through do what
one buffer with all their items does, so that it does not matter how the items were cut.
`pushAll_history` is about runs whose calls may fail: the blocks of the calls that succeeded, what
these read of them and what they left, followed by what is carried, are in order what the buffers
delivered, and a buffer is delivered as a whole unless its call failed. -/

namespace IQzip.Library

universe u v w

variable {σ : Type u} {α : Type v} {β : Type w}

namespace Rechunker

variable {c : Coder σ α β} {n m : Nat}

/-! ## Cutting into buffers -/

/-- Blocks in two parts: the second is not begun when the first fails. -/
theorem runBlocks_append (r : Rechunker σ α β) (as bs : List (List α)) :
    r.runBlocks c m (as ++ bs)
      = if (r.runBlocks c m as).1 = 0 then (r.runBlocks c m as).2.runBlocks c m bs
        else r.runBlocks c m as := by
  induction as generalizing r with
  | nil => exact (if_pos rfl).symm
  | cons a as ih =>
    rw [List.cons_append, runBlocks]
    by_cases hok : (c.call r.state .noFlush a m).status = 0
    · rw [if_pos hok, ih, runBlocks, if_pos hok]
    · rw [if_neg hok, runBlocks, if_neg hok, if_neg hok]

/-- Blocks that all go through leave the carry alone. -/
theorem carry_runBlocks {r : Rechunker σ α β} {bs : List (List α)}
    (hok : (r.runBlocks c m bs).1 = 0) : (r.runBlocks c m bs).2.carry = r.carry := by
  induction bs generalizing r with
  | nil => rfl
  | cons b bs ih =>
    rw [runBlocks] at hok ⊢
    by_cases hb : (c.call r.state .noFlush b m).status = 0
    · rw [if_pos hb] at hok ⊢
      exact ih hok
    · rw [if_neg hb] at hok
      exact absurd hok hb

/-- **Buffers that go through**: what is pushed and what is carried. -/
theorem push_of_ok {r : Rechunker σ α β} {buf : List α} (hok : (r.push c n m buf).1 = 0) :
    (({ r with carry := [] } : Rechunker σ α β).runBlocks c m (blocks n (r.carry ++ buf))).1 = 0
      ∧ r.push c n m buf = (0,
        { (({ r with carry := [] } : Rechunker σ α β).runBlocks c m
            (blocks n (r.carry ++ buf))).2 with carry := rest n (r.carry ++ buf) }) := by
  unfold push at hok ⊢
  dsimp only at hok ⊢
  split_ifs at hok ⊢ with hblocks
  · exact ⟨hblocks, rfl⟩
  · exact absurd hok hblocks

/-- **Two buffers and one.** The second is looked at when the first goes through. -/
theorem push_append (hn : 0 < n) (r : Rechunker σ α β) (xs ys : List α) :
    r.push c n m (xs ++ ys)
      = if (r.push c n m xs).1 = 0 then (r.push c n m xs).2.push c n m ys
        else r.push c n m xs := by
  let first := ({ r with carry := [] } : Rechunker σ α β).runBlocks c m (blocks n (r.carry ++ xs))
  have hblocks : blocks n (r.carry ++ (xs ++ ys))
      = blocks n (r.carry ++ xs) ++ blocks n (rest n (r.carry ++ xs) ++ ys) := by
    rw [← List.append_assoc, blocks_append hn]
  have hrest : rest n (r.carry ++ (xs ++ ys)) = rest n (rest n (r.carry ++ xs) ++ ys) := by
    rw [← List.append_assoc, rest_append hn]
  by_cases hok : (r.push c n m xs).1 = 0
  · obtain ⟨hfirst, hpush⟩ := push_of_ok hok
    -- the rest of the first buffer is carried into the second
    have hcarry : first.2.carry = [] := carry_runBlocks hfirst
    have hclear : ({ first.2 with carry := [] } : Rechunker σ α β) = first.2 := by
      rw [← hcarry]
    rw [if_pos hok, hpush]
    simp only [push, hblocks, hrest, runBlocks_append, if_pos hfirst]
    change _ = if (runBlocks c m { first.2 with carry := [] } _).1 = 0 then _ else _
    rw [hclear]
  · have hfirst : first.1 ≠ 0 := by
      intro hzero
      apply hok
      simp only [push]
      rw [if_pos hzero]
    rw [if_neg hok]
    simp only [push, hblocks, runBlocks_append]
    rw [if_neg hfirst, if_neg hfirst, if_neg hfirst]

/-- What is carried after a buffer that goes through is less than a block. -/
theorem length_carry_push (hn : 0 < n) {r : Rechunker σ α β} {buf : List α}
    (hok : (r.push c n m buf).1 = 0) : (r.push c n m buf).2.carry.length < n := by
  rw [(push_of_ok hok).2]
  exact length_rest_lt hn _

/-- **Buffers that all go through** are one buffer: whether they do is a matter of the items, not of
the cuts, and so is what they leave. -/
theorem pushesOk_iff (hn : 0 < n) {bufs : List (List α)} {r : Rechunker σ α β}
    (hcarry : r.carry.length < n) :
    (r.PushesOk c n m bufs ↔ (r.push c n m bufs.flatten).1 = 0)
      ∧ (r.PushesOk c n m bufs → r.pushes c n m bufs = (r.push c n m bufs.flatten).2) := by
  -- on the buffers, from whatever carry they meet
  induction bufs generalizing r with
  | nil =>
    have hnone : r.push c n m [] = (0, r) := by
      rw [push_of_lt (by rwa [List.append_nil]), List.append_nil]
    rw [List.flatten_nil, hnone]
    exact ⟨⟨fun _ => rfl, fun _ => trivial⟩, fun _ => rfl⟩
  | cons buf bufs ih =>
    rw [List.flatten_cons, push_append hn]
    by_cases hok : (r.push c n m buf).1 = 0
    · obtain ⟨hiff, hsame⟩ := ih (length_carry_push hn hok)
      rw [if_pos hok]
      exact ⟨⟨fun h => hiff.mp h.2, fun h => ⟨hok, hiff.mpr h⟩⟩, fun h => hsame h.2⟩
    · rw [if_neg hok]
      exact ⟨⟨fun h => absurd h.1 hok, fun h => absurd h hok⟩, fun h => absurd h.1 hok⟩

end Rechunker

/-! ## Calls that fail -/

/-- A block that a call was offered: what the call read of it, and what it left. -/
structure Cut (α : Type v) where
  read : List α
  left : List α

/-- The block. -/
def Cut.block (k : Cut α) : List α := k.read ++ k.left

/-- The items of blocks in order, whether they were read or left. -/
def Cut.items (ks : List (Cut α)) : List α := (ks.map Cut.block).flatten

/-- Runs of blocks one after the other. -/
theorem Cut.items_append (ks ks' : List (Cut α)) :
    Cut.items (ks ++ ks') = Cut.items ks ++ Cut.items ks' := by
  rw [Cut.items, List.map_append, List.flatten_append]
  rfl

/-- How a call cuts a block. -/
def Answer.cut (a : Answer σ β) (b : List α) : Cut α :=
  { read := b.take a.consumed, left := b.drop a.consumed }

/-- A cut loses nothing. -/
@[simp] theorem Answer.block_cut (a : Answer σ β) (b : List α) : (a.cut b).block = b :=
  List.take_append_drop ..

/-- What calls without flush do to a coder, in order: a call that succeeds has read a part of its
block and left the rest, one that fails has changed the state of the coder and nothing else. -/
inductive Coder.History (c : Coder σ α β) (m : Nat) (s₀ : σ) :
    σ → List (Cut α) → List β → Prop
  | start : History c m s₀ s₀ [] []
  | coded {s done made b} (h : History c m s₀ s done made)
      (hok : (c.call s .noFlush b m).status = 0) :
      History c m s₀ (c.call s .noFlush b m).next (done ++ [(c.call s .noFlush b m).cut b])
        (made ++ (c.call s .noFlush b m).produced)
  | failed {s done made b} (h : History c m s₀ s done made)
      (herr : (c.call s .noFlush b m).status ≠ 0) :
      History c m s₀ (c.call s .noFlush b m).next done made

/-- The part of a buffer that was delivered: all of it, unless its call failed. -/
def Delivers (delivered : List α) (buf : List α) (status : Int) : Prop :=
  delivered <+: buf ∧ (status = 0 → delivered = buf)

namespace Rechunker

variable {c : Coder σ α β} {n m : Nat} {s₀ : σ} {done : List (Cut α)}

/-- The buffers in order, with the status of each. -/
def pushAll (c : Coder σ α β) (n m : Nat) (r : Rechunker σ α β) :
    List (List α) → List Int × Rechunker σ α β
  | [] => ([], r)
  | buf :: bufs =>
    let out := r.push c n m buf
    let outs := pushAll c n m out.2 bufs
    (out.1 :: outs.1, outs.2)

/-- The statuses aside, these are the pushes. -/
theorem pushAll_snd (r : Rechunker σ α β) (bufs : List (List α)) :
    (r.pushAll c n m bufs).2 = r.pushes c n m bufs := by
  induction bufs generalizing r with
  | nil => rfl
  | cons buf bufs ih => exact ih _

/-- All statuses are zero when every buffer goes through. -/
theorem pushAll_fst_iff (r : Rechunker σ α β) (bufs : List (List α)) :
    (r.pushAll c n m bufs).1 = List.replicate bufs.length 0 ↔ r.PushesOk c n m bufs := by
  induction bufs generalizing r with
  | nil => exact ⟨fun _ => trivial, fun _ => rfl⟩
  | cons buf bufs ih =>
    rw [pushAll, List.length_cons, List.replicate_succ, List.cons.injEq, ih]
    rfl

/-- **Blocks**: the calls of all of them succeed, or of those in front of the one whose call failed,
and that one is carried. -/
theorem runBlocks_history {r : Rechunker σ α β} (h : c.History m s₀ r.state done r.written)
    (bs : List (List α)) :
    let out := r.runBlocks c m bs
    (out.1 = 0 ∧ ∃ ks, ks.map Cut.block = bs
        ∧ c.History m s₀ out.2.state (done ++ ks) out.2.written)
      ∨ (out.1 ≠ 0 ∧ ∃ ks b cs, bs = ks.map Cut.block ++ b :: cs ∧ out.2.carry = b
        ∧ c.History m s₀ out.2.state (done ++ ks) out.2.written) := by
  induction bs generalizing r done with
  | nil =>
    refine Or.inl ⟨rfl, [], rfl, ?_⟩
    rw [List.append_nil]
    exact h
  | cons b bs ih =>
    simp only [runBlocks]
    by_cases hok : (c.call r.state .noFlush b m).status = 0
    · rw [if_pos hok]
      have hnext := ih (r := ⟨_, r.carry, _⟩) (h.coded hok)
      let k := (c.call r.state .noFlush b m).cut b
      have hblock : k.block = b := Answer.block_cut ..
      rcases hnext with ⟨hall, ks, hks, hdone⟩ | ⟨herr, ks, b', cs, hbs, hcarry, hdone⟩
      · refine Or.inl ⟨hall, k :: ks, by rw [List.map_cons, hblock, hks], ?_⟩
        rw [List.append_cons]
        exact hdone
      · refine Or.inr ⟨herr, k :: ks, b', cs, ?_, hcarry, ?_⟩
        · rw [hbs, List.map_cons, hblock, List.cons_append]
        · rw [List.append_cons]
          exact hdone
    · rw [if_neg hok]
      refine Or.inr ⟨hok, [], b, bs, rfl, rfl, ?_⟩
      rw [List.append_nil]
      exact h.failed hok

/-- What a carry is at most, and that the blocks are blocks. -/
structure Fits (n : Nat) (r : Rechunker σ α β) (done : List (Cut α)) : Prop where
  carry : r.carry.length ≤ n
  blocks : ∀ k ∈ done, k.block.length = n

/-- **One buffer**, whether its call fails or not: what was delivered of it is behind the blocks and
the carry of before, and nothing else is. -/
theorem push_history (hn : 0 < n) {r : Rechunker σ α β} (buf : List α)
    (h : c.History m s₀ r.state done r.written) (hfits : r.Fits n done) :
    let out := r.push c n m buf
    ∃ done' delivered, c.History m s₀ out.2.state done' out.2.written
      ∧ Delivers delivered buf out.1 ∧ out.2.Fits n done'
      ∧ Cut.items done' ++ out.2.carry = Cut.items done ++ r.carry ++ delivered := by
  have hblocks : ∀ b ∈ blocks n (r.carry ++ buf), b.length = n := fun _ => length_of_mem_blocks
  have hcut := flatten_blocks hn (r.carry ++ buf)
  have hclear : c.History m s₀ ({ r with carry := [] } : Rechunker σ α β).state done
      ({ r with carry := [] } : Rechunker σ α β).written := h
  simp only [push]
  rcases runBlocks_history hclear (blocks n (r.carry ++ buf))
    with ⟨hall, ks, hks, hdone⟩ | ⟨herr, ks, b, cs, hbs, hcarry, hdone⟩
  · -- every call succeeded, and the rest is carried
    rw [if_pos hall]
    rw [← hks] at hblocks hcut
    rw [← Cut.items] at hcut
    refine ⟨_, buf, hdone, ⟨List.prefix_rfl, fun _ => rfl⟩, ⟨(length_rest_lt hn _).le, ?_⟩, ?_⟩
    · intro k hk
      rcases List.mem_append.mp hk with hold | hnew
      · exact hfits.blocks k hold
      · exact hblocks _ (List.mem_map_of_mem hnew)
    · rw [Cut.items_append, List.append_assoc, hcut, List.append_assoc]
  · rw [if_neg herr]
    rw [hbs, List.forall_mem_append, List.forall_mem_cons] at hblocks
    rw [hbs, List.flatten_append, List.flatten_cons, ← Cut.items, List.append_assoc,
      List.append_assoc] at hcut
    -- what was carried is in front of the block that failed, or in it
    have hlong : r.carry.length ≤ (Cut.items ks ++ b).length := by
      rw [List.length_append, hblocks.2.1]
      exact Nat.le_trans hfits.carry (Nat.le_add_left n _)
    obtain ⟨delivered, hdelivered⟩ : r.carry <+: Cut.items ks ++ b := by
      refine List.prefix_of_prefix_length_le (List.prefix_append r.carry buf) ?_ hlong
      rw [← hcut, ← List.append_assoc]
      exact List.prefix_append ..
    refine ⟨_, delivered, hdone, ⟨?_, fun hzero => absurd hzero herr⟩, ⟨?_, ?_⟩, ?_⟩
    · rw [← List.prefix_append_right_inj r.carry, hdelivered, ← hcut, ← List.append_assoc]
      exact List.prefix_append ..
    · rw [hcarry, hblocks.2.1]
    · intro k hk
      rcases List.mem_append.mp hk with hold | hnew
      · exact hfits.blocks k hold
      · exact hblocks.1 _ (List.mem_map_of_mem hnew)
    · rw [hcarry, Cut.items_append, List.append_assoc, List.append_assoc, hdelivered]

/-- **A run of buffers whose calls may fail.** What the calls that succeeded read and left, and what
is carried, is what the buffers delivered, in order. -/
theorem pushAll_history (hn : 0 < n) {r : Rechunker σ α β} (bufs : List (List α))
    (h : c.History m s₀ r.state done r.written) (hfits : r.Fits n done) :
    let outs := r.pushAll c n m bufs
    ∃ done' delivered, c.History m s₀ outs.2.state done' outs.2.written
      ∧ List.Forall₂ (fun d (x : List α × Int) => Delivers d x.1 x.2) delivered (bufs.zip outs.1)
      ∧ outs.2.Fits n done'
      ∧ Cut.items done' ++ outs.2.carry = Cut.items done ++ r.carry ++ delivered.flatten := by
  induction bufs generalizing r done with
  | nil =>
    refine ⟨done, [], h, .nil, hfits, ?_⟩
    rw [List.flatten_nil, List.append_nil]
    rfl
  | cons buf bufs ih =>
    obtain ⟨done₁, delivered, h₁, hdelivers, hfits₁, heq⟩ := push_history hn buf h hfits
    obtain ⟨done', ds, h', hds, hfits', heq'⟩ := ih h₁ hfits₁
    refine ⟨done', delivered :: ds, h', .cons hdelivers hds, hfits', ?_⟩
    rw [List.flatten_cons, ← List.append_assoc, ← heq, ← heq']
    rfl

end Rechunker

end IQzip.Library
