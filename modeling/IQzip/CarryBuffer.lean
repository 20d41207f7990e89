import IQzip.Sessions
import IQzip.Decompressor
import IQzip.Library.Traced

/-! # The carry buffer

`stream_compress` and `stream_decompress` copy the caller's buffer into `d_tmp_stream` piece by
piece, with offsets and lengths that are unsigned sums and differences. Here the same functions
record every copy, every value of `d_stream_avail_in` and of `remainder` and every turn of the loop,
so that a call that ends in an abort is covered as well: `streamCodeTraced_result` forgets the
record again.

`streamCode_ensures` is what one call keeps, from any carry of at most a block. It does not depend
on the coder, and the other member functions leave the carry alone. -/

namespace IQzip

open Library

variable {σ : Type}

/-- What a call of a streaming function does to the carry buffer. -/
inductive StreamEvent
  /-- `memcpy(&d_tmp_stream[offset], inbuf, count)`, with `inbuf` moved on by `start` bytes. -/
  | memcpy (offset start count : Nat)
  /-- `d_stream_avail_in = n`. -/
  | availIn (n : Nat)
  /-- `remainder = availIn + nbytes - STREAM_CHUNK`, as it is computed. -/
  | remainder (availIn nbytes : Nat) (value : Int)
  /-- The body of the loop is entered. -/
  | turn

namespace StreamEvent

/-- The copy stays inside the first block of `d_tmp_stream` and inside a buffer of `length` bytes,
no more than a block is carried, and `remainder` is the exact difference. -/
def Safe (length : Nat) : StreamEvent → Prop
  | .memcpy offset start count => offset + count ≤ streamChunk ∧ start + count ≤ length
  | .availIn n => n ≤ streamChunk
  | .remainder carried nbytes value => value = ((carried + nbytes : Nat) : Int) - streamChunk
  | .turn => True

/-- Turns of the loop. -/
def turns : StreamEvent → Nat
  | .turn => 1
  | _ => 0

end StreamEvent

namespace CodecImpl

/-! ## The functions with their record -/

/-- A result with the events before it. -/
abbrev Recorded : Type → Type := Traced StreamEvent Abort

/-- The copy of `n` bytes behind the carried ones, from the buffer moved on by `start` bytes. -/
def copyTraced (c : CodecImpl σ) (inbuf : List U8) (start n : Nat) :
    Recorded Buffer := do
  .emit (.memcpy c.dStreamAvailIn start n)
  .ofExcept (c.dTmpStream.memcpy c.dStreamAvailIn (inbuf.drop start) n)

/-- The loop body up to the arithmetic on the input. -/
def streamBlockTraced (api : Aec σ) (c : CodecImpl σ) (fs : FileSystem) (inbuf : List U8)
    (start : Nat) : Recorded (Int × CodecImpl σ × FileSystem) := do
  let tmp ← c.copyTraced inbuf start (sizeSub streamChunk c.dStreamAvailIn)
  .emit (.availIn streamChunk)
  let (status, c) ← .ofExcept
    (codeStream api .noFlush { c with dTmpStream := tmp, dStreamAvailIn := streamChunk })
  if status ≠ aecOk then pure (status, c, fs)
  else do
    let (c, fs) ← .ofExcept (c.writeProduced fs)
    pure (aecOk, c.settle, fs)

/-- After the loop. -/
def streamRestTraced (c : CodecImpl σ) (fs : FileSystem) (inbuf : List U8) (start nbytes : Nat) :
    Recorded (Int × CodecImpl σ × FileSystem) :=
  if nbytes ≠ 0 then do
    let tmp ← c.copyTraced inbuf start nbytes
    .emit (.availIn nbytes)
    pure (aecOk, { c with dTmpStream := tmp, dStreamAvailIn := nbytes }, fs)
  else pure (aecOk, c, fs)

/-- The loop, and what follows it. -/
def streamLoopTraced (api : Aec σ) (c : CodecImpl σ) (fs : FileSystem) (inbuf : List U8)
    (start nbytes : Nat) (remainder : Int) : Recorded (Int × CodecImpl σ × FileSystem) :=
  if 0 ≤ remainder then do
    .emit .turn
    let (status, c, fs) ← c.streamBlockTraced api fs inbuf start
    if status ≠ aecOk then pure (status, c, fs)
    else do
      let left := sizeSub nbytes (sizeSub nbytes (sizeOfInt remainder))
      .emit (.availIn 0)
      .emit (.remainder 0 left (longOfSize (sizeSub (sizeAdd 0 left) streamChunk)))
      streamLoopTraced api { c with dStreamAvailIn := 0, dStrm := { c.dStrm with availIn := 0 } } fs
        inbuf (start + sizeSub nbytes (sizeOfInt remainder)) left
        (longOfSize (sizeSub (sizeAdd 0 left) streamChunk))
  else c.streamRestTraced fs inbuf start nbytes
termination_by (remainder + 1).toNat
decreasing_by exact remainder_lt ‹_›

/-- `stream_compress` and `stream_decompress`. -/
def streamCodeTraced (api : Aec σ) (c : CodecImpl σ) (fs : FileSystem) (inbuf : InBuf) :
    Recorded (Int × CodecImpl σ × FileSystem) :=
  let nbytes := inbuf.bytes.length
  if sizeAdd c.dStreamAvailIn nbytes < streamChunk then do
    let tmp ← c.copyTraced inbuf.bytes 0 nbytes
    let avail := sizeAdd c.dStreamAvailIn nbytes
    .emit (.availIn avail)
    pure (aecOk, { c with
      dTmpStream := tmp
      dStreamAvailIn := avail
      dStrm := { c.dStrm with availIn := avail } }, fs)
  else do
    let remainder := longOfSize (sizeSub (sizeAdd c.dStreamAvailIn nbytes) streamChunk)
    .emit (.remainder c.dStreamAvailIn nbytes remainder)
    c.streamLoopTraced api fs inbuf.bytes 0 nbytes remainder

section Erasure

variable (api : Aec σ) (c : CodecImpl σ) (fs : FileSystem) (inbuf : List U8)

/-- The events of a copy do not change it. -/
theorem copyTraced_result (start n : Nat) :
    (c.copyTraced inbuf start n).result
      = c.dTmpStream.memcpy c.dStreamAvailIn (inbuf.drop start) n := rfl

/-- The events of a block do not change it. -/
theorem streamBlockTraced_result (start : Nat) :
    (c.streamBlockTraced api fs inbuf start).result
      = c.streamBlock api fs (inbuf.drop start) := by
  unfold streamBlockTraced streamBlock
  simp only [Traced.result_bind, copyTraced_result]
  cases c.dTmpStream.memcpy c.dStreamAvailIn (inbuf.drop start)
      (sizeSub streamChunk c.dStreamAvailIn) with
  | error e => rfl
  | ok tmp =>
    simp only [Except.bind, Traced.result_emit, Traced.result_ofExcept]
    cases codeStream api .noFlush { c with dTmpStream := tmp, dStreamAvailIn := streamChunk } with
    | error e => rfl
    | ok coded =>
      obtain ⟨status, c'⟩ := coded
      simp only
      split_ifs
      · rfl
      · cases hwrite : c'.writeProduced fs <;> simp [Except.bind]

/-- Nor do those of the copy behind the loop. -/
theorem streamRestTraced_result (start nbytes : Nat) :
    (c.streamRestTraced fs inbuf start nbytes).result
      = c.streamRest fs (inbuf.drop start) nbytes := by
  unfold streamRestTraced streamRest
  split_ifs
  · simp only [Traced.result_bind, copyTraced_result]
    cases c.dTmpStream.memcpy c.dStreamAvailIn (inbuf.drop start) nbytes with
    | error e => rfl
    | ok tmp => rfl
  · rfl

/-- Nor do those of the loop. -/
theorem streamLoopTraced_result (start nbytes : Nat) (remainder : Int) :
    (c.streamLoopTraced api fs inbuf start nbytes remainder).result
      = c.streamLoop api fs (inbuf.drop start) nbytes remainder := by
  induction hk : (remainder + 1).toNat using Nat.strong_induction_on
    generalizing c fs start nbytes remainder with
  | h k ih =>
    rw [streamLoopTraced, streamLoop]
    split_ifs with hgo
    · simp only [Traced.result_bind, Traced.result_emit, Except.bind, streamBlockTraced_result]
      cases c.streamBlock api fs (inbuf.drop start) with
      | error e => rfl
      | ok outcome =>
        obtain ⟨status, c', fs'⟩ := outcome
        by_cases herr : status ≠ aecOk
        · simp only [if_pos herr, Traced.result_pure]
        · have hless := @remainder_lt nbytes remainder hgo
          rw [hk] at hless
          dsimp only
          rw [if_neg herr, if_neg herr, Traced.result_emit_bind, Traced.result_emit_bind,
            ih _ hless _ _ _ _ _ rfl, List.drop_drop]
    · exact streamRestTraced_result c fs inbuf start nbytes

/-- **The record is of the function**: without it, the recording function is the other one. -/
theorem streamCodeTraced_result (inbuf : InBuf) :
    (c.streamCodeTraced api fs inbuf).result = c.streamCode api fs inbuf := by
  unfold streamCodeTraced streamCode
  dsimp only
  split_ifs
  · simp only [Traced.result_bind, copyTraced_result, List.drop_zero]
    cases c.dTmpStream.memcpy c.dStreamAvailIn inbuf.bytes inbuf.bytes.length with
    | error e => rfl
    | ok tmp => rfl
  · rw [Traced.result_emit_bind, streamLoopTraced_result, List.drop_zero]

end Erasure

/-! ## One call -/

/-- No more than a block is carried, and after `AEC_OK` less than one. -/
def CarriesOver (status : Int) (c : CodecImpl σ) : Prop :=
  c.dStreamAvailIn ≤ streamChunk ∧ (status = aecOk → c.dStreamAvailIn < streamChunk)

section Safety

variable {api : Aec σ} {c : CodecImpl σ} {fs : FileSystem} {inbuf : List U8} {start nbytes : Nat}

/-- A copy inside the block and the buffer is safe. -/
theorem copyTraced_ensures {n : Nat} (hroom : c.dStreamAvailIn + n ≤ streamChunk)
    (hn : start + n ≤ inbuf.length) :
    (c.copyTraced inbuf start n).Ensures (StreamEvent.Safe inbuf.length) StreamEvent.turns 0
      fun _ => True := by
  refine Traced.ensures_emit_bind_free ⟨hroom, hn⟩ rfl ?_
  exact Traced.ensures_ofExcept fun _ _ => trivial

/-- A coder call leaves the carry alone. -/
theorem codeStream_availIn {mode : FlushMode} {status : Int} {c' : CodecImpl σ}
    (h : c.codeStream api mode = .ok (status, c')) : c'.dStreamAvailIn = c.dStreamAvailIn := by
  unfold codeStream at h
  split at h
  · cases h
  · cases h
    rfl

/-- So does the reset of the output. -/
theorem settle_availIn (c : CodecImpl σ) : c.settle.dStreamAvailIn = c.dStreamAvailIn := by
  unfold settle
  split_ifs
  · rfl
  · rfl

/-- **A block** is filled to its end and no further, and stays counted until the loop goes on. -/
theorem streamBlockTraced_ensures (havail : c.dStreamAvailIn ≤ streamChunk)
    (hstart : start + (streamChunk - c.dStreamAvailIn) ≤ inbuf.length) :
    (c.streamBlockTraced api fs inbuf start).Ensures (StreamEvent.Safe inbuf.length)
      StreamEvent.turns 0 fun r => r.2.1.dStreamAvailIn = streamChunk := by
  have hsub : sizeSub streamChunk c.dStreamAvailIn = streamChunk - c.dStreamAvailIn :=
    sizeSub_of_le havail (by decide)
  have hcopy := @copyTraced_ensures σ c inbuf start (streamChunk - c.dStreamAvailIn)
    (Nat.le_of_eq (Nat.add_sub_of_le havail)) hstart
  unfold streamBlockTraced
  rw [hsub]
  refine hcopy.bind_free ?_
  intro tmp _
  refine Traced.ensures_emit_bind_free (Nat.le_refl streamChunk) rfl ?_
  have hcode : (Traced.ofExcept (codeStream api .noFlush
      { c with dTmpStream := tmp, dStreamAvailIn := streamChunk }) :
        Recorded (Int × CodecImpl σ)).Ensures (StreamEvent.Safe inbuf.length) StreamEvent.turns 0
      fun r => r.2.dStreamAvailIn = streamChunk := by
    refine Traced.ensures_ofExcept ?_
    rintro ⟨status, c'⟩ hcoded
    exact codeStream_availIn hcoded
  refine hcode.bind_free ?_
  rintro ⟨status, c'⟩ hfull
  dsimp only at hfull ⊢
  by_cases herr : status ≠ aecOk
  · rw [if_pos herr]
    exact Traced.ensures_pure hfull
  · rw [if_neg herr]
    have hwrite : (Traced.ofExcept (c'.writeProduced fs)
        : Recorded (CodecImpl σ × FileSystem)).Ensures
        (StreamEvent.Safe inbuf.length) StreamEvent.turns 0
        fun r => r.1.dStreamAvailIn = streamChunk := by
      refine Traced.ensures_ofExcept ?_
      rintro ⟨written, fs'⟩ hwritten
      exact (congrArg dStreamAvailIn (writeProduced_eq hwritten)).trans hfull
    refine hwrite.bind_free ?_
    rintro ⟨written, fs'⟩ hfull'
    exact Traced.ensures_pure ((settle_availIn written).trans hfull')

/-- **The leftover bytes** fit, when less than a block is left and nothing is carried. -/
theorem streamRestTraced_ensures (hempty : c.dStreamAvailIn = 0) (hlt : nbytes < streamChunk)
    (hstart : start + nbytes ≤ inbuf.length) :
    (c.streamRestTraced fs inbuf start nbytes).Ensures (StreamEvent.Safe inbuf.length)
      StreamEvent.turns 0 fun r => CarriesOver r.1 r.2.1 := by
  unfold streamRestTraced
  by_cases hne : nbytes ≠ 0
  · rw [if_pos hne]
    refine (copyTraced_ensures (by omega) hstart).bind_free ?_
    intro tmp _
    refine Traced.ensures_emit_bind_free (Nat.le_of_lt hlt) rfl ?_
    exact Traced.ensures_pure ⟨Nat.le_of_lt hlt, fun _ => hlt⟩
  · rw [if_neg hne]
    refine Traced.ensures_pure ⟨?_, fun _ => ?_⟩
    · exact hempty ▸ Nat.zero_le streamChunk
    · exact hempty ▸ (by decide : 0 < streamChunk)

/-- **The loop**: every turn takes a block off what is carried and left, so there are no more turns
than blocks, and less than a block remains for the end. -/
theorem streamLoopTraced_ensures (havail : c.dStreamAvailIn ≤ streamChunk)
    (hwhole : start + nbytes = inbuf.length) (hbound : inbuf.length < 2 ^ 63)
    (hcarry : streamChunk ≤ c.dStreamAvailIn + nbytes ∨ c.dStreamAvailIn = 0) :
    (c.streamLoopTraced api fs inbuf start nbytes
        (((c.dStreamAvailIn + nbytes : Nat) : Int) - (streamChunk : Int))).Ensures
      (StreamEvent.Safe inbuf.length) StreamEvent.turns
      ((c.dStreamAvailIn + nbytes) / streamChunk) fun r => CarriesOver r.1 r.2.1 := by
  -- on the bytes carried and left
  induction hk : c.dStreamAvailIn + nbytes using Nat.strong_induction_on
    generalizing c fs start nbytes with
  | h k ih =>
    have hchunk := streamChunk_eq
    rw [streamLoopTraced]
    by_cases hfull : streamChunk ≤ c.dStreamAvailIn + nbytes
    · have hroom : start + (streamChunk - c.dStreamAvailIn) ≤ inbuf.length := by omega
      have hless : 0 + (c.dStreamAvailIn + nbytes - streamChunk) < k := by omega
      have hwhole' : start + (streamChunk - c.dStreamAvailIn)
          + (c.dStreamAvailIn + nbytes - streamChunk) = inbuf.length := by omega
      obtain ⟨hrem, htaken, hleft⟩ := turn_differences havail hfull (by omega)
      have hnext := @remainder_eq 0 (c.dStreamAvailIn + nbytes - streamChunk) (Nat.zero_le _)
        (by omega)
      rw [hk] at hless hwhole' hrem htaken hleft hnext hfull
      rw [if_pos (by omega), hrem, htaken, hleft]
      have hturn : StreamEvent.turns .turn + (0 + (k - streamChunk)) / streamChunk
          ≤ k / streamChunk := by
        rw [Nat.zero_add, Nat.div_eq_sub_div (by decide) hfull]
        exact Nat.le_of_eq (Nat.add_comm 1 _)
      refine Traced.ensures_emit_bind trivial hturn ?_
      refine (streamBlockTraced_ensures havail hroom).bind_free ?_
      rintro ⟨status, c', fs'⟩ hblock
      dsimp only at hblock ⊢
      by_cases herr : status ≠ aecOk
      · -- the failed block stays carried
        rw [if_pos herr]
        exact Traced.ensures_pure ⟨Nat.le_of_eq hblock, fun h => absurd h herr⟩
      · rw [if_neg herr, hnext]
        refine Traced.ensures_emit_bind_free (Nat.zero_le streamChunk) rfl ?_
        refine Traced.ensures_emit_bind_free rfl rfl ?_
        exact ih _ hless (Nat.zero_le streamChunk) hwhole' (Or.inr rfl) rfl
    · have hempty := hcarry.resolve_left hfull
      rw [if_neg (by omega), Nat.div_eq_of_lt (by omega)]
      exact streamRestTraced_ensures hempty (by omega) (Nat.le_of_eq hwhole)

/-- **One call**, from any carry of at most a block and whatever the coder returns. -/
theorem streamCodeTraced_ensures (havail : c.dStreamAvailIn ≤ streamChunk) (inbuf : InBuf) :
    (c.streamCodeTraced api fs inbuf).Ensures (StreamEvent.Safe inbuf.bytes.length)
      StreamEvent.turns ((c.dStreamAvailIn + inbuf.bytes.length) / streamChunk)
      fun r => CarriesOver r.1 r.2.1 := by
  have hchunk := streamChunk_eq
  have hbound := inbuf.bounded
  have hsum := carried_add havail hbound
  unfold streamCodeTraced
  dsimp only
  by_cases hlt : c.dStreamAvailIn + inbuf.bytes.length < streamChunk
  · rw [hsum, if_pos hlt, Nat.div_eq_of_lt hlt]
    refine (copyTraced_ensures (Nat.le_of_lt hlt) (by omega)).bind_free ?_
    intro tmp _
    refine Traced.ensures_emit_bind_free (Nat.le_of_lt hlt) rfl ?_
    exact Traced.ensures_pure ⟨Nat.le_of_lt hlt, fun _ => hlt⟩
  · rw [if_neg (by rwa [hsum]), remainder_eq havail hbound]
    refine Traced.ensures_emit_bind_free rfl rfl ?_
    exact streamLoopTraced_ensures havail (Nat.zero_add _) hbound (Or.inl (by omega))

end Safety

/-! ## Sequences of calls -/

/-- At most a block is carried, and `d_tmp_stream` has room for one. -/
structure CarryFits (c : CodecImpl σ) : Prop where
  availIn_le : c.dStreamAvailIn ≤ streamChunk
  tmpSize : streamChunk ≤ c.dTmpStream.size

/-- What holds of a call of a streaming function, whether it returns or not. -/
structure CallSafe (api : Aec σ) (c : CodecImpl σ) (fs : FileSystem) (inbuf : InBuf) : Prop
    extends CarryFits c where
  events : ∀ e ∈ (c.streamCodeTraced api fs inbuf).events, e.Safe inbuf.bytes.length
  turns : ((c.streamCodeTraced api fs inbuf).events.map StreamEvent.turns).sum
    ≤ (c.dStreamAvailIn + inbuf.bytes.length) / streamChunk
  after : ∀ status c' fs', c.streamCode api fs inbuf = .ok (status, c', fs') →
    CarriesOver status c'

section Run

variable {api : Aec σ} {c c' : CodecImpl σ} {fs fs' : FileSystem} {status : Int}

/-- A call is safe when the carry fits. -/
theorem CarryFits.callSafe (h : CarryFits c) (api : Aec σ) (fs : FileSystem) (inbuf : InBuf) :
    CallSafe api c fs inbuf := by
  have hcall := @streamCodeTraced_ensures σ api c fs h.availIn_le inbuf
  refine ⟨h, hcall.events, hcall.within, ?_⟩
  intro status c' fs' hreturn
  exact hcall.post (status, c', fs') ((streamCodeTraced_result api c fs inbuf).trans hreturn)

/-- The carry fits after the call too. -/
theorem CarryFits.streamCode (h : CarryFits c) {inbuf : InBuf}
    (hreturn : c.streamCode api fs inbuf = .ok (status, c', fs')) : CarryFits c' where
  availIn_le := ((h.callSafe api fs inbuf).after status c' fs' hreturn).1
  tmpSize := (streamCode_keeps hreturn).tmpSize ▸ h.tmpSize

/-- The functions at the end of a session do not touch it. -/
theorem CarryFits.streamFin (h : CarryFits c) {mode : FlushMode}
    (hreturn : c.streamFin api mode fs = .ok (status, c', fs')) : CarryFits c' := by
  obtain ⟨htmp, havail, -⟩ := streamFin_leaves hreturn
  exact ⟨havail ▸ h.availIn_le, htmp ▸ h.tmpSize⟩

/-- Nor does the one at its beginning. -/
theorem CarryFits.streamCompressInit (h : CarryFits c) {fout : String}
    (hreturn : c.streamCompressInit api fs fout = .ok (status, c', fs')) : CarryFits c' := by
  unfold CodecImpl.streamCompressInit at hreturn
  dsimp only at hreturn
  split at hreturn
  · cases hreturn
  · split_ifs at hreturn
    · cases hreturn
      exact ⟨h.availIn_le, h.tmpSize⟩
    · cases hreturn
      exact ⟨h.availIn_le, h.tmpSize⟩

end Run

end CodecImpl

/-- A call of a streaming function of a compressor returns, whatever the status. -/
inductive CompressorCall (api : Aec σ) (c c' : CodecImpl σ) : Prop
  | init {fs fs' : FileSystem} {fout : String} {status : Int}
      (h : c.streamCompressInit api fs fout = .ok (status, c', fs'))
  | code {fs fs' : FileSystem} {inbuf : InBuf} {status : Int}
      (h : c.streamCompress api fs inbuf = .ok (status, c', fs'))
  | fin {fs fs' : FileSystem} {status : Int}
      (h : c.streamCompressFin api fs = .ok (status, c', fs'))

/-- A call of a streaming function of a decompressor returns, whatever the status. -/
inductive DecompressorCall (api : Aec σ) (d d' : DecompressorImpl σ) : Prop
  | init {fs fs' : FileSystem} {fin fout : String} {status : Int}
      (h : d.decompressInit api fs fin fout = .ok (status, d', fs'))
  | code {fs fs' : FileSystem} {inbuf : InBuf} {status : Int} {c' : CodecImpl σ}
      (h : d.streamDecompress api fs inbuf = .ok (status, c', fs'))
      (heq : d' = { d with toCodecImpl := c' })
  | fin {fs fs' : FileSystem} {status : Int} {c' : CodecImpl σ}
      (h : d.streamDecompressFin api fs = .ok (status, c', fs'))
      (heq : d' = { d with toCodecImpl := c' })

section Calls

variable {api : Aec σ}

/-- **Step rule**: the calls of a compressor keep the carry in its block. -/
theorem CompressorCall.carryFits {c c' : CodecImpl σ} (h : CompressorCall api c c')
    (hfits : c.CarryFits) : c'.CarryFits := by
  cases h with
  | init h => exact hfits.streamCompressInit h
  | code h => exact hfits.streamCode h
  | fin h => exact hfits.streamFin h

/-- `decompress_init` does not touch the carry. -/
theorem DecompressorImpl.decompressInit_carry {d d' : DecompressorImpl σ} {fs fs' : FileSystem}
    {fin fout : String} {status : Int}
    (h : d.decompressInit api fs fin fout = .ok (status, d', fs')) :
    d'.dStreamAvailIn = d.dStreamAvailIn ∧ d'.dTmpStream = d.dTmpStream := by
  unfold decompressInit readHeader at h
  split at h
  · cases h
  · next hread =>
    split at hread
    · cases hread
    · cases hread
      dsimp only at h
      split_ifs at h
      · cases h
        exact ⟨rfl, rfl⟩
      · cases h
        exact ⟨rfl, rfl⟩
      · cases h
        exact ⟨rfl, rfl⟩

/-- **Step rule**: so do those of a decompressor. -/
theorem DecompressorCall.carryFits {d d' : DecompressorImpl σ} (h : DecompressorCall api d d')
    (hfits : d.CarryFits) : d'.CarryFits := by
  cases h with
  | init h =>
    obtain ⟨havail, htmp⟩ := DecompressorImpl.decompressInit_carry h
    exact ⟨havail ▸ hfits.availIn_le, htmp ▸ hfits.tmpSize⟩
  | code h heq =>
    subst heq
    exact hfits.streamCode h
  | fin h heq =>
    subst heq
    exact hfits.streamFin h

/-- A new compressor has room for a block when its samples have a bit. -/
theorem CompressorImpl.carryFits_construct (storage : ObjectStorage σ) {cfg : Config}
    (hres : 1 ≤ cfg.sampleResolution) : (CompressorImpl.construct storage cfg).CarryFits where
  availIn_le := Nat.zero_le streamChunk
  tmpSize := Nat.le_mul_of_pos_left streamChunk hres

/-- A new decompressor always has. -/
theorem DecompressorImpl.carryFits_construct (storage : ObjectStorage σ) :
    (DecompressorImpl.construct storage).CarryFits where
  availIn_le := Nat.zero_le streamChunk
  tmpSize := Nat.le_refl streamChunk

end Calls

/-- **The carry buffer is safe.** Whatever the coder returns, in every state that calls reach from a
new compressor with a sample resolution of at least 1, or from a new decompressor: at most a block
is carried, and a call of the streaming function, even one that does not return, copies only from
inside its buffer and only to the first block of `d_tmp_stream`, never lets `d_stream_avail_in`
exceed a block, computes every `remainder` exactly, and makes at most as many turns as there are
blocks; when it returns `AEC_OK`, less than a block is carried. -/
theorem carry_safe (api : Aec σ) :
    (∀ (storage : ObjectStorage σ) (cfg : Config) (c : CodecImpl σ), 1 ≤ cfg.sampleResolution →
        Relation.ReflTransGen (CompressorCall api) (CompressorImpl.construct storage cfg) c →
        ∀ (fs : FileSystem) (inbuf : InBuf), c.CallSafe api fs inbuf)
      ∧ ∀ (storage : ObjectStorage σ) (d : DecompressorImpl σ),
        Relation.ReflTransGen (DecompressorCall api) (DecompressorImpl.construct storage) d →
        ∀ (fs : FileSystem) (inbuf : InBuf), d.CallSafe api fs inbuf := by
  constructor
  · intro storage cfg c hres hrun fs inbuf
    have hfits : c.CarryFits := by
      induction hrun with
      | refl => exact CompressorImpl.carryFits_construct storage hres
      | tail _ hcall ih => exact hcall.carryFits ih
    exact hfits.callSafe api fs inbuf
  · intro storage d hrun fs inbuf
    have hfits : d.CarryFits := by
      induction hrun with
      | refl => exact DecompressorImpl.carryFits_construct storage
      | tail _ hcall ih => exact hcall.carryFits ih
    exact hfits.callSafe api fs inbuf

/-- A buffer of more than a block. -/
def fillingBuffer : InBuf where
  bytes := List.replicate (streamChunk + 2) 0
  bounded := by
    rw [List.length_replicate]
    decide

/-- When the coder fails on the first block of a buffer, the block is carried in full, and the next
call is safe, as is one on a decompressor without a coder state. -/
theorem carry_safe_failing :
    let api := Aec.failingOnce fun _ => 0
    (∃ c c', CompressorCall api (CompressorImpl.construct (zeroStorage _) byteConfig) c
        ∧ CompressorCall api c c' ∧ c'.dStreamAvailIn = streamChunk
        ∧ c'.CallSafe api .empty fillingBuffer)
      ∧ (DecompressorImpl.construct (zeroStorage _)).CallSafe api .empty fillingBuffer := by
  intro api
  constructor
  · obtain ⟨c, hopen, hstart⟩ := @CodecImpl.streamCompressInit_represents _ api
      (CompressorImpl.construct (zeroStorage _) byteConfig) .empty "a.iqz" false rfl rfl rfl rfl
      (by decide) rfl rfl
    obtain ⟨c', fs', hcode, hnext⟩ := hstart.streamCode api fillingBuffer
    have hlong : streamChunk ≤ ([] ++ fillingBuffer.bytes).length := by
      rw [List.nil_append, fillingBuffer, List.length_replicate]
      exact Nat.le_add_right ..
    have hpush := Rechunker.push_of_le_of_ne (c := api.coder) (m := chunk)
      (r := Rechunker.start false) (n := streamChunk) (by decide) hlong
      (show (-1 : Int) ≠ 0 by decide)
    have hrep := hnext (Or.inr Aec.failsSilently_failingOnce)
    rw [hpush] at hrep
    have hcarry : c'.dStreamAvailIn = streamChunk := by
      rw [← hrep.length_carry]
      exact List.length_take_of_le hlong
    refine ⟨c, c', .init hopen, .code hcode, hcarry, ?_⟩
    exact (carry_safe api).1 (zeroStorage _) byteConfig c' (by decide)
      (.tail (.single (.init hopen)) (.code hcode)) _ _
  · exact (carry_safe api).2 (zeroStorage _) _ .refl _ _

end IQzip
