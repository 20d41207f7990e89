import IQzip.Library.Coder
import Mathlib.Algebra.Order.Group.Nat
import Mathlib.Tactic.Common

/-! # Feeding a coder in blocks

Buffers of any size arrive; a coder wants blocks of `n` items. What does not fill a block is
carried to the next buffer. `blocks` and `rest` cut a list, `Rechunker.push` handles one buffer,
and `Rechunker.pushes_inv` says that a run of buffers calls the coder on the blocks of their
concatenation, however it was cut into buffers. -/

namespace IQzip.Library

universe u v w

variable {σ : Type u} {α : Type v} {β : Type w}

/-! ## Cutting a list -/

/-- The full blocks of `n` items of a list, in order. -/
def blocks (n : Nat) (xs : List α) : List (List α) :=
  (List.range (xs.length / n)).map fun i => (xs.drop (i * n)).take n

/-- What follows the last full block. -/
def rest (n : Nat) (xs : List α) : List α := xs.drop (xs.length / n * n)

section Cut

variable {n : Nat} {xs : List α}

/-- A short list has no full block. -/
theorem blocks_of_lt (h : xs.length < n) : blocks n xs = [] := by
  simp [blocks, Nat.div_eq_of_lt h]

/-- All of a short list is left. -/
theorem rest_of_lt (h : xs.length < n) : rest n xs = xs := by
  simp [rest, Nat.div_eq_of_lt h]

/-- Dropping a block takes one off the number of blocks. -/
theorem length_drop_div (hn : 0 < n) (h : n ≤ xs.length) :
    xs.length / n = (xs.drop n).length / n + 1 := by
  rw [List.length_drop, Nat.div_eq_sub_div hn h]

/-- The first block of a list that has one. -/
theorem blocks_of_le (hn : 0 < n) (h : n ≤ xs.length) :
    blocks n xs = xs.take n :: blocks n (xs.drop n) := by
  rw [blocks, length_drop_div hn h, List.range_succ_eq_map]
  simp [blocks, Nat.succ_mul, Nat.add_comm]

/-- Taking a block off the front leaves the rest as it is. -/
theorem rest_of_le (hn : 0 < n) (h : n ≤ xs.length) : rest n xs = rest n (xs.drop n) := by
  rw [rest, length_drop_div hn h, rest, List.drop_drop, Nat.succ_mul, Nat.add_comm]

/-- Every block is full. -/
theorem length_of_mem_blocks {b : List α} (hb : b ∈ blocks n xs) : b.length = n := by
  obtain ⟨i, hi, rfl⟩ := List.mem_map.mp hb
  have hlt : i + 1 ≤ xs.length / n := List.mem_range.mp hi
  have hmul := (Nat.mul_le_mul_right n hlt).trans (Nat.div_mul_le_self xs.length n)
  rw [Nat.succ_mul] at hmul
  rw [List.length_take, List.length_drop]
  omega

/-- The length of the rest is a remainder. -/
theorem length_rest (n : Nat) (xs : List α) : (rest n xs).length = xs.length % n := by
  have hdiv := Nat.div_add_mod xs.length n
  rw [Nat.mul_comm] at hdiv
  rw [rest, List.length_drop]
  omega

/-- It is less than a block. -/
theorem length_rest_lt (hn : 0 < n) (xs : List α) : (rest n xs).length < n := by
  rw [length_rest]
  exact Nat.mod_lt _ hn

/-- **Cutting loses nothing.** -/
theorem flatten_blocks (hn : 0 < n) (xs : List α) : (blocks n xs).flatten ++ rest n xs = xs := by
  -- on the length: one block is taken off the front, and the rest is shorter
  induction hlen : xs.length using Nat.strongRecOn generalizing xs with
  | ind k ih =>
    by_cases h : xs.length < n
    · rw [blocks_of_lt h, rest_of_lt h]
      rfl
    · have hle : n ≤ xs.length := Nat.le_of_not_lt h
      rw [blocks_of_le hn hle, rest_of_le hn hle, List.flatten_cons, List.append_assoc,
        ih (xs.drop n).length (by rw [List.length_drop]; omega) _ rfl, List.take_append_drop]

/-- The blocks of two lists: what is left of the first goes in front of the second. -/
theorem blocks_append (hn : 0 < n) (xs ys : List α) :
    blocks n (xs ++ ys) = blocks n xs ++ blocks n (rest n xs ++ ys) := by
  induction hlen : xs.length using Nat.strongRecOn generalizing xs with
  | ind k ih =>
    -- with no full block in `xs`, all of it is carried into `ys`
    by_cases h : xs.length < n
    · rw [blocks_of_lt h, rest_of_lt h]
      rfl
    · have hle : n ≤ xs.length := Nat.le_of_not_lt h
      have hle' : n ≤ (xs ++ ys).length := by rw [List.length_append]; omega
      rw [blocks_of_le hn hle', blocks_of_le hn hle, rest_of_le hn hle,
        List.take_append_of_le_length hle, List.drop_append_of_le_length hle,
        ih (xs.drop n).length (by rw [List.length_drop]; omega) _ rfl]
      rfl

/-- What is left of both. -/
theorem rest_append (hn : 0 < n) (xs ys : List α) :
    rest n (xs ++ ys) = rest n (rest n xs ++ ys) := by
  induction hlen : xs.length using Nat.strongRecOn generalizing xs with
  | ind k ih =>
    by_cases h : xs.length < n
    · rw [rest_of_lt h]
    · have hle : n ≤ xs.length := Nat.le_of_not_lt h
      have hle' : n ≤ (xs ++ ys).length := by rw [List.length_append]; omega
      rw [rest_of_le hn hle', rest_of_le hn hle, List.drop_append_of_le_length hle,
        ih (xs.drop n).length (by rw [List.length_drop]; omega) _ rfl]

/-- The length of all blocks together. -/
theorem length_flatten_blocks (n : Nat) (xs : List α) :
    (blocks n xs).flatten.length = xs.length / n * n := by
  -- all blocks have the same length, so their lengths sum to a product
  have hall : (blocks n xs).map List.length = List.replicate (xs.length / n) n := by
    rw [List.eq_replicate_iff]
    constructor
    · simp [blocks]
    · intro k hk
      obtain ⟨b, hb, rfl⟩ := List.mem_map.mp hk
      exact length_of_mem_blocks hb
  rw [List.length_flatten, hall, List.sum_replicate_nat]

end Cut

/-! ## Carrying the rest -/

/-- The coder, the items carried to the next buffer, and the sink. -/
structure Rechunker (σ : Type u) (α : Type v) (β : Type w) where
  state : σ
  carry : List α
  written : List β

namespace Rechunker

/-- Nothing carried, nothing written. -/
def start (s₀ : σ) : Rechunker σ α β := { state := s₀, carry := [], written := [] }

/-- Call the coder on blocks in order. A call that fails ends this, and its block is carried. -/
def runBlocks (c : Coder σ α β) (m : Nat) (r : Rechunker σ α β) :
    List (List α) → Int × Rechunker σ α β
  | [] => (0, r)
  | b :: bs =>
    let a := c.call r.state .noFlush b m
    if a.status = 0 then
      runBlocks c m { r with state := a.next, written := r.written ++ a.produced } bs
    -- the blocks behind a failed call are dropped, the failed one is kept
    else (a.status, { r with state := a.next, carry := b })

/-- One buffer: code the full blocks of what was carried and the buffer, carry the rest. -/
def push (c : Coder σ α β) (n m : Nat) (r : Rechunker σ α β) (buf : List α) :
    Int × Rechunker σ α β :=
  let out := runBlocks c m { r with carry := [] } (blocks n (r.carry ++ buf))
  if out.1 = 0 then (0, { out.2 with carry := rest n (r.carry ++ buf) }) else out

/-- Buffers in order, whatever their calls report. -/
def pushes (c : Coder σ α β) (n m : Nat) (r : Rechunker σ α β) (bufs : List (List α)) :
    Rechunker σ α β :=
  bufs.foldl (fun r buf => (r.push c n m buf).2) r

/-- What has been written after a last call on what is carried; a call that fails adds nothing. -/
def finish (c : Coder σ α β) (mode : FlushMode) (m : Nat) (r : Rechunker σ α β) : List β :=
  if (c.call r.state mode r.carry m).status = 0 then
    r.written ++ (c.call r.state mode r.carry m).produced
  else r.written

/-- Every buffer of a run is pushed with status zero. -/
def PushesOk (c : Coder σ α β) (n m : Nat) (r : Rechunker σ α β) : List (List α) → Prop
  | [] => True
  | buf :: bufs => (r.push c n m buf).1 = 0 ∧ PushesOk c n m (r.push c n m buf).2 bufs

section Push

variable {c : Coder σ α β} {n m : Nat} {r : Rechunker σ α β} {buf : List α}

/-- A buffer that fills no block is added to what is carried. -/
theorem push_of_lt (h : (r.carry ++ buf).length < n) :
    r.push c n m buf = (0, { r with carry := r.carry ++ buf }) := by
  rw [push, blocks_of_lt h, rest_of_lt h]
  rfl

/-- The first block of a buffer that fills one, when its call returns zero. -/
theorem push_of_le (hn : 0 < n) (h : n ≤ (r.carry ++ buf).length)
    (hok : (c.call r.state .noFlush ((r.carry ++ buf).take n) m).status = 0) :
    r.push c n m buf
      = push c n m
          { state := (c.call r.state .noFlush ((r.carry ++ buf).take n) m).next
            carry := []
            written :=
              r.written ++ (c.call r.state .noFlush ((r.carry ++ buf).take n) m).produced }
          ((r.carry ++ buf).drop n) := by
  simp only [push, List.nil_append]
  rw [blocks_of_le hn h, rest_of_le hn h, runBlocks, if_pos hok]

/-- The first block of a buffer that fills one, when its call fails: the rest is not looked at. -/
theorem push_of_le_of_ne (hn : 0 < n) (h : n ≤ (r.carry ++ buf).length)
    (herr : (c.call r.state .noFlush ((r.carry ++ buf).take n) m).status ≠ 0) :
    r.push c n m buf
      = ((c.call r.state .noFlush ((r.carry ++ buf).take n) m).status,
          { r with
            state := (c.call r.state .noFlush ((r.carry ++ buf).take n) m).next
            carry := (r.carry ++ buf).take n }) := by
  simp only [push]
  rw [blocks_of_le hn h, runBlocks, if_neg herr, if_neg herr]

end Push

section Invariant

variable {c : Coder σ α β} {n m : Nat} {input : List α} {inv : List α → σ → List β → Prop}

/-- What one call on a block must do: return zero and keep the invariant. -/
def BlockStep (c : Coder σ α β) (n m : Nat) (input : List α)
    (inv : List α → σ → List β → Prop) : Prop :=
  ∀ ⦃used b s made⦄, n ∣ used.length → b.length = n → used ++ b <+: input → inv used s made →
    (c.call s .noFlush b m).status = 0
      ∧ inv (used ++ b) (c.call s .noFlush b m).next (made ++ (c.call s .noFlush b m).produced)

/-- Blocks in order keep what each call keeps. -/
theorem runBlocks_inv (hblock : BlockStep c n m input inv) {bs : List (List α)}
    (hlen : ∀ b ∈ bs, b.length = n) {r : Rechunker σ α β} {used : List α}
    (hdvd : n ∣ used.length) (hpre : used ++ bs.flatten <+: input)
    (hinv : inv used r.state r.written) :
    (r.runBlocks c m bs).1 = 0
      ∧ inv (used ++ bs.flatten) (r.runBlocks c m bs).2.state (r.runBlocks c m bs).2.written := by
  -- on the blocks still to code; `used` grows by one block in every step
  induction bs generalizing r used with
  | nil => exact ⟨rfl, by simpa [runBlocks] using hinv⟩
  | cons b bs ih =>
    have hb : b.length = n := hlen b List.mem_cons_self
    rw [List.flatten_cons, ← List.append_assoc] at hpre ⊢
    obtain ⟨hok, hnext⟩ := hblock hdvd hb ((List.prefix_append ..).trans hpre) hinv
    have hdvd' : n ∣ (used ++ b).length := by
      rw [List.length_append, hb]
      exact Nat.dvd_add hdvd (Nat.dvd_refl n)
    rw [runBlocks, if_pos hok]
    exact ih (fun b' hb' => hlen b' (List.mem_cons_of_mem b hb')) hdvd' hpre hnext

/-- One buffer codes the full blocks and carries the rest. -/
theorem push_inv (hblock : BlockStep c n m input inv) (hn : 0 < n) {r : Rechunker σ α β}
    {used buf : List α} (hdvd : n ∣ used.length) (hpre : used ++ (r.carry ++ buf) <+: input)
    (hinv : inv used r.state r.written) :
    (r.push c n m buf).1 = 0 ∧ (r.push c n m buf).2.carry = rest n (r.carry ++ buf)
      ∧ inv (used ++ (blocks n (r.carry ++ buf)).flatten) (r.push c n m buf).2.state
        (r.push c n m buf).2.written := by
  have hpre' : used ++ (blocks n (r.carry ++ buf)).flatten <+: input := by
    refine List.IsPrefix.trans ?_ hpre
    rw [List.prefix_append_right_inj]
    exact ⟨_, flatten_blocks hn _⟩
  -- a push starts from an empty carry, which the invariant does not mention
  have hclear : inv used ({ r with carry := [] } : Rechunker σ α β).state
      ({ r with carry := [] } : Rechunker σ α β).written := hinv
  obtain ⟨hok, hrun⟩ := runBlocks_inv hblock (fun _ => length_of_mem_blocks) hdvd hpre' hclear
  simp only [push, if_pos hok]
  exact ⟨trivial, trivial, hrun⟩

/-- **Run rule.** A run of buffers calls the coder on the blocks of their concatenation. -/
theorem pushes_inv (hblock : BlockStep c n m input inv) (hn : 0 < n) {bufs : List (List α)}
    {r : Rechunker σ α β} {used : List α} (hdvd : n ∣ used.length)
    (hpre : used ++ (r.carry ++ bufs.flatten) <+: input) (hinv : inv used r.state r.written)
    (hcarry : r.carry.length < n) :
    r.PushesOk c n m bufs ∧ (r.pushes c n m bufs).carry = rest n (r.carry ++ bufs.flatten)
      ∧ inv (used ++ (blocks n (r.carry ++ bufs.flatten)).flatten) (r.pushes c n m bufs).state
        (r.pushes c n m bufs).written := by
  -- on the buffers still to come; between two of them the carry is shorter than a block
  induction bufs generalizing r used with
  | nil =>
    rw [List.flatten_nil, List.append_nil, rest_of_lt hcarry, blocks_of_lt hcarry]
    exact ⟨trivial, rfl, by simpa [pushes] using hinv⟩
  | cons buf bufs ih =>
    rw [List.flatten_cons, ← List.append_assoc r.carry] at hpre ⊢
    have hfirst : used ++ (r.carry ++ buf) <+: input := by
      refine List.IsPrefix.trans ?_ hpre
      rw [List.prefix_append_right_inj]
      exact List.prefix_append (r.carry ++ buf) _
    obtain ⟨hok, hrest, hnext⟩ := push_inv hblock hn hdvd hfirst hinv
    have hdvd' : n ∣ (used ++ (blocks n (r.carry ++ buf)).flatten).length := by
      rw [List.length_append, length_flatten_blocks]
      exact Nat.dvd_add hdvd (Nat.dvd_mul_left n _)
    have hpre' : (used ++ (blocks n (r.carry ++ buf)).flatten)
        ++ ((r.push c n m buf).2.carry ++ bufs.flatten) <+: input := by
      rw [hrest, List.append_assoc, ← List.append_assoc (blocks n _).flatten, flatten_blocks hn]
      exact hpre
    have hall := ih hdvd' hpre' hnext (by rw [hrest]; exact length_rest_lt hn _)
    rw [hrest] at hall
    -- the blocks of the first buffer, then those of its rest with the later buffers
    rw [rest_append hn, blocks_append hn, List.flatten_append, ← List.append_assoc used]
    exact ⟨⟨hok, hall.1⟩, hall.2⟩

/-- The run rule from the start. -/
theorem pushes_start_inv (inv : List α → σ → List β → Prop)
    (hblock : BlockStep c n m input inv) (hn : 0 < n) {bufs : List (List α)}
    (hinput : bufs.flatten = input) {s₀ : σ} (hinv : inv [] s₀ []) :
    (start s₀ : Rechunker σ α β).PushesOk c n m bufs
      ∧ ((start s₀).pushes c n m bufs).carry = rest n input
      ∧ inv (blocks n input).flatten ((start s₀).pushes c n m bufs).state
        ((start s₀).pushes c n m bufs).written := by
  have hpre : [] ++ ((start s₀ : Rechunker σ α β).carry ++ bufs.flatten) <+: input := by
    rw [hinput]
    exact List.prefix_refl _
  have hdvd : n ∣ ([] : List α).length := Nat.dvd_zero n
  have hall := pushes_inv hblock hn hdvd hpre hinv hn
  rw [hinput] at hall
  exact hall

/-- A coder that never fails takes every buffer. -/
theorem pushesOk_of_status (hok : ∀ s xs, (c.call s .noFlush xs m).status = 0) (hn : 0 < n) (s₀ : σ)
    (bufs : List (List α)) : (start s₀ : Rechunker σ α β).PushesOk c n m bufs := by
  have hblock : BlockStep c n m bufs.flatten fun _ _ _ => True :=
    fun _ _ _ _ _ _ _ _ => ⟨hok _ _, trivial⟩
  exact (pushes_start_inv _ hblock hn rfl trivial).1

end Invariant

/-! ## Coders that take whole blocks -/

section Reaches

variable {c : Coder σ α β} {n m : Nat} {s₀ : σ} {input : List α}

/-- **Buffers over a feeding coder**: the blocks are used and the rest is carried. -/
theorem pushes_feeds {feed : σ → List α → σ × List β} {finish : σ → List β}
    (feeds : c.Feeds m s₀ input feed finish) (hn : 0 < n) (hnm : n ≤ m) {bufs : List (List α)}
    (hinput : bufs.flatten = input) :
    (start s₀ : Rechunker σ α β).PushesOk c n m bufs
      ∧ ((start s₀).pushes c n m bufs).carry = rest n input
      ∧ c.Reaches m s₀ input ((start s₀).pushes c n m bufs).state (blocks n input).flatten
        ((start s₀).pushes c n m bufs).written := by
  apply pushes_start_inv (fun used s made => c.Reaches m s₀ input s used made) _ hn hinput .start
  intro used b s made _ hb hpre hs
  have hle : b.length ≤ m := by omega
  have hok : (c.call s .noFlush b m).status = 0 := feeds.accepts hs hpre hle
  have hall : (c.call s .noFlush b m).consumed = b.length := by
    rw [feeds.call_noFlush hs hpre hle]
  refine ⟨hok, ?_⟩
  have hnext := hs.call hpre hle hok
  rw [hall, List.take_length] at hnext
  exact hnext

end Reaches

/-! ## Coders that take whole groups -/

section Grained

variable {c : Coder σ α β} {n m g : Nat} {s₀ : σ} {input : List α}

/-- **Grain.** A call on a block or less returns zero and leaves an incomplete group unread. -/
def Grained (c : Coder σ α β) (n m g : Nat) : Prop :=
  ∀ s xs, xs.length ≤ n → (c.call s .noFlush xs m).status = 0
    ∧ (c.call s .noFlush xs m).consumed = xs.length - xs.length % g

/-- **Buffers over a grained coder**: every block loses its incomplete group. -/
theorem pushes_grained (grained : Grained c n m g) (hn : 0 < n) {bufs : List (List α)}
    (hinput : bufs.flatten = input) :
    (start (Coder.Ledger.start s₀) : Rechunker _ α β).PushesOk c.recording n m bufs
      ∧ ((start (Coder.Ledger.start s₀)).pushes c.recording n m bufs).carry = rest n input
      ∧ ((start (Coder.Ledger.start s₀)).pushes c.recording n m bufs).state.used.length
        + input.length / n * (n % g) = input.length / n * n
      ∧ (g ∣ n → ((start (Coder.Ledger.start s₀)).pushes c.recording n m bufs).state.used
        = (blocks n input).flatten) := by
  -- each block of `n` items loses the `n % g` of them that make no whole group
  let inv (used : List α) (l : Coder.Ledger σ α β) (_ : List β) : Prop :=
    l.used.length + used.length / n * (n % g) = used.length ∧ (g ∣ n → l.used = used)
  have hstart : inv [] (Coder.Ledger.start s₀) [] := ⟨by simp [Coder.Ledger.start], fun _ => rfl⟩
  have hblock : BlockStep c.recording n m input inv := by
    rintro used b l _ hdvd hb - ⟨hlen, hall⟩
    obtain ⟨hok, hused⟩ := grained l.state b hb.le
    rw [hb] at hused
    have hnext : (c.recording.call l .noFlush b m).next.used = l.used ++ b.take (n - n % g) := by
      rw [← hused]
      rfl
    refine ⟨hok, ?_, ?_⟩
    · -- what is used falls short by one more incomplete group
      have hblocks : (used ++ b).length / n = used.length / n + 1 := by
        rw [List.length_append, hb, Nat.add_div_right _ hn]
      have hle := Nat.mod_le n g
      rw [hnext, hblocks, Nat.succ_mul, List.length_append, List.length_append, List.length_take,
        hb]
      omega
    · intro hg
      rw [hnext, hall hg, Nat.mod_eq_zero_of_dvd hg, Nat.sub_zero, ← hb, List.take_length]
  obtain ⟨hok, hcarry, hlen, hall⟩ := pushes_start_inv inv hblock hn hinput hstart
  rw [length_flatten_blocks, Nat.mul_div_cancel _ hn] at hlen
  exact ⟨hok, hcarry, hlen, hall⟩

/-- **What is used and what is carried is everything** exactly when a block is whole groups, or no
block was full. -/
theorem used_append_carry_iff (grained : Grained c n m g) (hn : 0 < n) {bufs : List (List α)}
    (hinput : bufs.flatten = input) :
    ((start (Coder.Ledger.start s₀)).pushes c.recording n m bufs).state.used
        ++ ((start (Coder.Ledger.start s₀)).pushes c.recording n m bufs).carry = input
      ↔ g ∣ n ∨ input.length < n := by
  obtain ⟨-, hcarry, hlen, hall⟩ := pushes_grained grained hn hinput
  rw [hcarry]
  constructor
  · intro h
    have htotal := congrArg List.length h
    have hdiv := Nat.div_add_mod input.length n
    rw [Nat.mul_comm] at hdiv
    rw [List.length_append, length_rest] at htotal
    -- the lengths agree only if no item was lost
    have hlost : input.length / n * (n % g) = 0 := by omega
    rcases Nat.mul_eq_zero.mp hlost with hnone | hwhole
    · exact Or.inr (Nat.lt_of_div_eq_zero hn hnone)
    · exact Or.inl (Nat.dvd_of_mod_eq_zero hwhole)
  · rintro (hg | hshort)
    · rw [hall hg, flatten_blocks hn]
    · have hempty : input.length / n = 0 := Nat.div_eq_of_lt hshort
      rw [hempty, Nat.zero_mul, Nat.zero_mul, Nat.add_zero] at hlen
      rw [List.length_eq_zero_iff.mp hlen, rest_of_lt hshort, List.nil_append]

end Grained

end Rechunker

end IQzip.Library
