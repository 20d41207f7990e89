import IQzip.CarryBuffer
import IQzip.Calls

/-! # What a streaming call rests on

libaec may fail in any call, stop anywhere in its output space and leave bytes unread, and a caller
may go on after any status. What the streaming functions keep all the same comes in two strengths.
On a `Roomy` object every copy and every call of the coder stays inside its buffers. On a `Sound`
one the counters never claim more of `d_out` than there is, so the writes do too. A call that
succeeds leaves a sound object; a failing one keeps it sound when it counts what it makes.

An init clears `total_out`, but no function clears `d_total_out`, so their difference can start out
below zero. It wraps to a length that is negative as a `std::streamsize`: the write behind the next
call that succeeds then writes nothing and puts the output stream in its failed state. A libaec that
counts more than it makes in a failing call can make the difference too large instead, and the write
then reads behind `d_out` (`Overruns`). -/

namespace IQzip

open Library

variable {σ τ : Type}

/-! ## Why a call aborts -/

namespace Outcome

variable {β γ : Type}

/-- Why a function does not return. -/
def abort : Outcome γ → Option Abort
  | .error e => some e
  | .ok _ => none

/-- A function without an abort returns. -/
theorem returns_of_abort {o : Outcome γ} (h : o.abort = none) :
    ∃ status c fs, o = .ok (status, c, fs) := by
  cases o with
  | error e => cases h
  | ok r => exact ⟨r.1, r.2.1, r.2.2, rfl⟩

/-- The function aborts as `why` says, and when it returns it leaves a `P`. -/
structure Ends (o : Outcome γ) (why : Option Abort) (P : γ → Prop) : Prop where
  abort_eq : o.abort = why
  leaves : ∀ status c fs, o = .ok (status, c, fs) → P c

variable {o : Outcome β} {why : Option Abort} {P : β → Prop}

/-- An abort aborts. -/
theorem ends_error (e : Abort) : Ends (.error e) (some e) P := ⟨rfl, nofun⟩

/-- A return leaves what it returns. -/
theorem ends_ok {status : Int} {c : β} {fs : FileSystem} (h : P c) :
    Ends (.ok (status, c, fs)) none P where
  abort_eq := rfl
  leaves _ _ _ heq := by
    cases heq
    exact h

/-- What holds of a part holds of the object that it is put back into. -/
theorem Ends.lift (h : o.Ends why P) {f : β → γ} {Q : γ → Prop} (hput : ∀ b, P b → Q (f b)) :
    (o.lift f).Ends why Q := by
  cases o with
  | error e => exact ⟨h.abort_eq, nofun⟩
  | ok r =>
    refine ⟨h.abort_eq, ?_⟩
    intro status c fs heq
    cases heq
    exact hput _ (h.leaves _ _ _ rfl)

end Outcome

/-- The abort of a call that needs the coder. -/
def IqzipImpl.coderAbort (c : IqzipImpl σ) : Option Abort :=
  if c.dStrm.state.isSome then none else some .nullCoderState

/-- The abort of the functions that write a header. -/
def writeAbort (fs : FileSystem) (fout : String) : Option Abort :=
  if fs.writable fout then none else some .nullFile

/-! ## The functions of the base class -/

namespace IqzipImpl

/-- The output counters of two objects agree. -/
def SameCounters (c c' : IqzipImpl σ) : Prop :=
  c'.dStrm.totalOut = c.dStrm.totalOut ∧ c'.dStrm.availOut = c.dStrm.availOut

/-- The output counters are as `init_aec_stream` sets them. -/
def Cleared (c : IqzipImpl σ) : Prop := c.dStrm.totalOut = 0 ∧ c.dStrm.availOut = chunk

/-- `compress_fin` and `decompress_fin` need the coder and do not count. -/
theorem fin_ends (c : IqzipImpl σ) (api : Aec σ) (fs : FileSystem) :
    (c.fin api fs).Ends c.coderAbort c.SameCounters := by
  unfold coderAbort fin Aec.finish
  cases c.dStrm.state with
  | none => exact Outcome.ends_error _
  | some s =>
    simp only [Option.isSome_some, if_true]
    split_ifs
    · exact Outcome.ends_ok ⟨rfl, rfl⟩
    · exact Outcome.ends_ok ⟨rfl, rfl⟩

/-- `compress_init` clears the counters, whatever it returns. -/
theorem compressInit_ends (c : IqzipImpl σ) (api : Aec σ) (fs : FileSystem) (fin fout : String) :
    (c.compressInit api fs fin fout).Ends (writeAbort fs fout) Cleared := by
  unfold compressInit writeAbort IqzipCompressionHeader.writeHeaderToFile
  cases fs.writable fout with
  | false => exact Outcome.ends_error _
  | true =>
    simp only [if_true]
    split_ifs
    · exact Outcome.ends_ok ⟨rfl, rfl⟩
    · exact Outcome.ends_ok ⟨rfl, rfl⟩
    · exact Outcome.ends_ok ⟨rfl, rfl⟩

end IqzipImpl

/-! ## What the calls keep -/

/-- The bytes made since the last write and the space that is left fit in a chunk. Otherwise those
made since the init do, and those counted before are at most `2^63`: then the difference of the
counters is right, or negative as a `std::streamsize`. -/
def CountersFit (total counted avail : Nat) : Prop :=
  sizeSub total counted + avail ≤ chunk ∨ (total + avail ≤ chunk ∧ counted ≤ 2 ^ 63)

namespace CountersFit

variable {total counted avail k n : Nat}

/-- After a call that counts what it makes they still do. -/
theorem after (h : CountersFit total counted avail) (hk : k ≤ avail) :
    CountersFit (sizeAdd total k) counted (avail - k) := by
  have := chunk_eq
  unfold CountersFit sizeSub sizeAdd sizeModulus at *
  omega

/-- The length they claim is inside a chunk, or negative. -/
theorem length_le (h : CountersFit total counted avail) (hpos : sizeSub total counted < 2 ^ 63) :
    sizeSub total counted ≤ chunk := by
  have := chunk_eq
  unfold CountersFit sizeSub sizeModulus at *
  omega

/-- Nothing is made of a chunk that has just been counted. -/
theorem settled (h : avail ≤ chunk) : CountersFit n n avail := by
  have := chunk_eq
  unfold CountersFit sizeSub sizeModulus
  omega

/-- After an init they fit, whatever was counted before. -/
theorem cleared (hcount : counted ≤ 2 ^ 63) : CountersFit 0 counted chunk :=
  Or.inr ⟨(Nat.zero_add chunk).le, hcount⟩

end CountersFit

/-- The difference of two counters is a `size_t`. -/
theorem sizeSub_lt (a b : Nat) : sizeSub a b < 2 ^ 64 := Nat.mod_lt _ (Nat.two_pow_pos 64)

namespace OutputStream

/-- The stream is open and has not failed. -/
def good : OutputStream → Bool
  | .opened _ false => true
  | _ => false

/-- **When a write aborts**: a good stream is asked for more than the buffer holds. -/
theorem write_error_iff {s : OutputStream} {fs : FileSystem} {b : Buffer} {n : Nat} {e : Abort}
    (hn : n < 2 ^ 64) : s.write fs b n = .error e
      ↔ e = .outOfBounds ∧ s.good = true ∧ b.size < n ∧ n < 2 ^ 63 := by
  cases s with
  | closed => simp [write, good]
  | opened path fail =>
    cases fail with
    | true => simp [write, good]
    | false =>
      by_cases hpos : n < 2 ^ 63
      · rw [write_opened fs path b hpos]
        by_cases hsize : b.size < n
        · rw [if_pos hsize, Except.error.injEq]
          exact ⟨fun he => ⟨he.symm, rfl, hsize, hpos⟩, fun he => he.1.symm⟩
        · simp [good, hsize]
      · have hneg := longOfSize_neg (Nat.le_of_not_lt hpos) hn
        simp only [write, if_pos hneg, hpos, and_false, reduceCtorEq]

end OutputStream

namespace CodecImpl

/-- The carry and the output fit their buffers. -/
structure Fits (c : CodecImpl σ) : Prop extends CarryFits c where
  outSize : c.dOut.size = chunk

/-- A coder call stays inside them. -/
structure Roomy (c : CodecImpl σ) : Prop extends Fits c where
  availOut_le : c.dStrm.availOut ≤ chunk

/-- A write does too. -/
structure Sound (c : CodecImpl σ) : Prop extends Fits c where
  counted : CountersFit c.dStrm.totalOut c.dTotalOut c.dStrm.availOut

/-- A sound object is roomy. -/
theorem Sound.roomy {c : CodecImpl σ} (h : Sound c) : Roomy c where
  toFits := h.toFits
  availOut_le := h.counted.elim (Nat.le_add_left ..).trans fun h => (Nat.le_add_left ..).trans h.1

/-- What a streaming function leaves, whatever it returns. -/
structure Goes (api : Aec σ) (c c' : CodecImpl σ) : Prop where
  roomy : c'.Roomy
  sound : api.CountsMade → c.Sound → c'.Sound

/-! ## One call of the coder -/

/-- The bytes carried for the next block. -/
def carry (c : CodecImpl σ) : List U8 := c.dTmpStream.load 0 c.dStreamAvailIn

/-- The coder call succeeds, and then the counters claim more than `d_out` holds, for a stream that
writes. -/
def Overruns (c : CodecImpl σ) (a : Answer σ U8) : Prop :=
  a.status = aecOk ∧ c.outputStream.good = true
    ∧ chunk < sizeSub (sizeAdd c.dStrm.totalOut a.counted) c.dTotalOut
    ∧ sizeSub (sizeAdd c.dStrm.totalOut a.counted) c.dTotalOut < 2 ^ 63

instance (c : CodecImpl σ) (a : Answer σ U8) : Decidable (c.Overruns a) :=
  inferInstanceAs (Decidable (_ ∧ _ ∧ _ ∧ _))

/-- The abort of a call of the coder over `xs` and of the write behind it. -/
def callAbort (api : Aec σ) (mode : FlushMode) (xs : List U8) (c : CodecImpl σ) : Option Abort :=
  c.dStrm.state.elim (some .nullCoderState) fun s =>
    if c.Overruns (api.coder.call s mode xs c.dStrm.availOut) then some .outOfBounds else none

section Step

variable {api : Aec σ} {c : CodecImpl σ} {fs : FileSystem} {inbuf : List U8} {a : Answer σ U8}
  {s : σ}

/-- A sound object does not overrun. -/
theorem Sound.not_overruns (h : Sound c) (hcount : a.status = aecOk →
    a.counted = a.produced.length) (hmade : a.produced.length ≤ c.dStrm.availOut) :
    ¬ c.Overruns a := by
  rintro ⟨hok, -, hlong, hpos⟩
  have hfit := h.counted.after hmade
  rw [← hcount hok] at hfit
  exact absurd (hfit.length_le hpos) (Nat.not_le.mpr hlong)

/-- So it aborts for the want of a coder only. -/
theorem Sound.callAbort (h : Sound c) (api : Aec σ) (mode : FlushMode) (xs : List U8) :
    c.callAbort api mode xs = c.coderAbort := by
  unfold CodecImpl.callAbort IqzipImpl.coderAbort
  cases c.dStrm.state with
  | none => rfl
  | some s =>
    exact if_neg (h.not_overruns (api.coder.counted_eq _ _ _ _) (api.coder.produced_le ..))

/-- Without a coder state a call aborts. -/
theorem callAbort_of_none (hs : c.dStrm.state = none) (mode : FlushMode) (xs : List U8) :
    c.callAbort api mode xs = some .nullCoderState := by
  rw [callAbort, hs]
  rfl

/-- With one it does when it overruns. -/
theorem callAbort_of_some (hs : c.dStrm.state = some s) (mode : FlushMode) (xs : List U8) :
    c.callAbort api mode xs = if c.Overruns (api.coder.call s mode xs c.dStrm.availOut)
      then some .outOfBounds else none := by
  rw [callAbort, hs]
  rfl

/-- **A coder call** stays inside `d_tmp_stream` and `d_out`, whatever libaec answers. -/
theorem Roomy.codeStream (h : Roomy c) (api : Aec σ) (mode : FlushMode) {s : σ}
    (hs : c.dStrm.state = some s) :
    c.codeStream api mode = .ok ((api.coder.call s mode c.carry c.dStrm.availOut).status,
      c.coded (api.coder.call s mode c.carry c.dStrm.availOut)) := by
  have hle : c.dStreamAvailIn ≤ c.dTmpStream.size := h.availIn_le.trans h.tmpSize
  have hoffered : c.readyStream.offered = c.carry := Buffer.take_load _ _ hle
  have hin : c.readyStream.availIn ≤ c.readyStream.nextIn.length := by
    rw [readyStream, Buffer.length_load]
    exact hle
  have hout : c.readyStream.nextOut + c.readyStream.availOut ≤ c.dOut.size := by
    rw [readyStream, h.outSize, Nat.zero_add]
    exact h.availOut_le
  have hcall := @Aec.code_eq_ok σ api c.readyStream c.dOut s mode hs hin hout
  rw [hoffered] at hcall
  rw [CodecImpl.codeStream, hcall]
  rfl

/-- The object after any call of the coder. -/
theorem Roomy.coded (h : Roomy c) (a : Answer σ U8) : Roomy (c.coded a) where
  availIn_le := h.availIn_le
  tmpSize := h.tmpSize
  outSize := h.outSize
  availOut_le := (Nat.sub_le ..).trans h.availOut_le

/-- So is a sound one, when the call counts what it makes. -/
theorem Sound.coded (h : Sound c) (hcount : a.counted = a.produced.length)
    (hmade : a.produced.length ≤ c.dStrm.availOut) : Sound (c.coded a) where
  availIn_le := h.availIn_le
  tmpSize := h.tmpSize
  outSize := h.outSize
  counted := by
    have hfit := h.counted.after hmade
    simp only [CodecImpl.coded, AecStream.after, hcount]
    exact hfit

/-- **When the write behind a call aborts.** -/
theorem Roomy.writeProduced_error_iff (h : Roomy c) (hok : a.status = aecOk) (fs : FileSystem)
    (e : Abort) :
    (c.coded a).writeProduced fs = .error e ↔ e = .outOfBounds ∧ c.Overruns a := by
  have hsize : (c.coded a).dOut.size = chunk := h.outSize
  have hwrite := @OutputStream.write_error_iff (c.coded a).outputStream fs (c.coded a).dOut _ e
    (sizeSub_lt (c.coded a).dStrm.totalOut (c.coded a).dTotalOut)
  rw [hsize] at hwrite
  have hovers : c.Overruns a ↔ (c.coded a).outputStream.good = true
      ∧ chunk < sizeSub (c.coded a).dStrm.totalOut (c.coded a).dTotalOut
      ∧ sizeSub (c.coded a).dStrm.totalOut (c.coded a).dTotalOut < 2 ^ 63 :=
    ⟨And.right, fun hlong => ⟨hok, hlong⟩⟩
  rw [hovers, ← hwrite]
  unfold CodecImpl.writeProduced
  dsimp only
  by_cases hpos : 0 < sizeSub (c.coded a).dStrm.totalOut (c.coded a).dTotalOut
  · rw [if_pos hpos]
    cases (c.coded a).outputStream.write fs (c.coded a).dOut _ <;> simp
  · -- nothing is claimed, and nothing is written
    have hshort : ¬ chunk < sizeSub (c.coded a).dStrm.totalOut (c.coded a).dTotalOut := by omega
    rw [if_neg hpos, hwrite]
    simp [hshort]

/-- **The write behind a call that overruns** aborts. -/
theorem Overruns.writeProduced (hover : c.Overruns a) (h : Roomy c) (fs : FileSystem) :
    (c.coded a).writeProduced fs = .error .outOfBounds :=
  (h.writeProduced_error_iff hover.1 fs _).mpr ⟨rfl, hover⟩

/-- **The write behind a call that succeeds** without overrunning stays inside `d_out`, and changes
the object in its output stream only. -/
theorem Roomy.writeProduced (h : Roomy c) (hok : a.status = aecOk) (hfit : ¬ c.Overruns a)
    (fs : FileSystem) : ∃ output fs',
      (c.coded a).writeProduced fs = .ok ({ c.coded a with outputStream := output }, fs') := by
  cases hwrite : (c.coded a).writeProduced fs with
  | error e => exact absurd ((h.writeProduced_error_iff hok fs e).mp hwrite).2 hfit
  | ok r =>
    refine ⟨r.1.outputStream, r.2, ?_⟩
    rw [← writeProduced_eq (show _ = Except.ok (r.1, r.2) from hwrite)]

/-- Behind a write the object is sound, whatever it was before. -/
theorem Roomy.settle (h : Roomy c) : Sound c.settle := by
  unfold CodecImpl.settle
  split_ifs with hpos
  · exact { h with counted := .settled (Nat.le_refl chunk) }
  · have hzero : sizeSub c.dStrm.totalOut c.dTotalOut = 0 := Nat.eq_zero_of_not_pos hpos
    exact { h with counted := Or.inl (by rw [hzero, Nat.zero_add]; exact h.availOut_le) }

/-- The reset of the output leaves the coder alone. -/
theorem settle_state (c : CodecImpl σ) : c.settle.dStrm.state = c.dStrm.state := by
  unfold CodecImpl.settle
  split_ifs
  · rfl
  · rfl

/-- The output stream plays no role for the room. -/
theorem Roomy.withOutput (h : Roomy c) (output : OutputStream) :
    Roomy { c with outputStream := output } := { h with }

/-! ## A block -/

/-- A copy that stays inside the block and its source succeeds. -/
theorem CarryFits.memcpy (h : CarryFits c) {n : Nat} (hroom : c.dStreamAvailIn + n ≤ streamChunk)
    (hsrc : n ≤ inbuf.length) : c.dTmpStream.memcpy c.dStreamAvailIn inbuf n
      = .ok (c.dTmpStream.splice c.dStreamAvailIn (inbuf.take n)) :=
  Buffer.memcpy_eq_ok (hroom.trans h.tmpSize) hsrc

/-- So does the copy that fills the block. -/
theorem CarryFits.fillBlock (h : CarryFits c)
    (hsrc : streamChunk - c.dStreamAvailIn ≤ inbuf.length) :
    c.dTmpStream.memcpy c.dStreamAvailIn inbuf (sizeSub streamChunk c.dStreamAvailIn)
      = .ok (c.dTmpStream.splice c.dStreamAvailIn
          (inbuf.take (streamChunk - c.dStreamAvailIn))) := by
  rw [sizeSub_of_le h.availIn_le (by decide)]
  exact h.memcpy (Nat.le_of_eq (Nat.add_sub_of_le h.availIn_le)) hsrc

/-- The object with a full block. -/
def filled (c : CodecImpl σ) (inbuf : List U8) : CodecImpl σ :=
  { c with
    dTmpStream := c.dTmpStream.splice c.dStreamAvailIn
      (inbuf.take (streamChunk - c.dStreamAvailIn))
    dStreamAvailIn := streamChunk }

/-- A full block fits. -/
theorem Roomy.filled (h : Roomy c) (inbuf : List U8) : Roomy (c.filled inbuf) :=
  { h with availIn_le := Nat.le_refl streamChunk }

/-- A sound object with a full block is sound. -/
theorem Sound.filled (h : Sound c) (inbuf : List U8) : Sound (c.filled inbuf) :=
  { h with availIn_le := Nat.le_refl streamChunk }

/-- The block is what was carried, filled up. -/
theorem CarryFits.carry_filled (h : CarryFits c)
    (hsrc : streamChunk - c.dStreamAvailIn ≤ inbuf.length) :
    (c.filled inbuf).carry = (c.carry ++ inbuf).take streamChunk := by
  have hle := h.availIn_le
  have hcarry : c.carry.length = c.dStreamAvailIn := Buffer.length_load ..
  have hload := c.dTmpStream.load_splice c.dStreamAvailIn
    (inbuf.take (streamChunk - c.dStreamAvailIn))
  rw [List.length_take, Nat.min_eq_left hsrc, Nat.add_sub_of_le hle] at hload
  rw [List.take_append, hcarry, List.take_of_length_le (hcarry.trans_le hle)]
  exact hload

/-- **A block is coded when it is full**: an abort of the call is one of the block. -/
theorem CarryFits.streamBlock_of_error (h : CarryFits c)
    (hsrc : streamChunk - c.dStreamAvailIn ≤ inbuf.length) {e : Abort}
    (hcode : (c.filled inbuf).codeStream api .noFlush = .error e) :
    c.streamBlock api fs inbuf = .error e := by
  unfold filled at hcode
  unfold CodecImpl.streamBlock
  rw [h.fillBlock hsrc]
  simp only [hcode]

/-- A call that fails leaves the block where it is. -/
theorem CarryFits.streamBlock_of_ne (h : CarryFits c)
    (hsrc : streamChunk - c.dStreamAvailIn ≤ inbuf.length) {status : Int} {c₁ : CodecImpl σ}
    (hcode : (c.filled inbuf).codeStream api .noFlush = .ok (status, c₁)) (herr : status ≠ aecOk) :
    c.streamBlock api fs inbuf = .ok (status, c₁, fs) := by
  unfold filled at hcode
  unfold CodecImpl.streamBlock
  rw [h.fillBlock hsrc]
  simp only [hcode, if_pos herr]

/-- What a call that succeeds made is written. -/
theorem CarryFits.streamBlock_of_ok (h : CarryFits c)
    (hsrc : streamChunk - c.dStreamAvailIn ≤ inbuf.length) {c₁ : CodecImpl σ}
    (hcode : (c.filled inbuf).codeStream api .noFlush = .ok (aecOk, c₁)) :
    c.streamBlock api fs inbuf
      = (c₁.writeProduced fs).map fun r => (aecOk, r.1.settle, r.2) := by
  unfold filled at hcode
  unfold CodecImpl.streamBlock
  rw [h.fillBlock hsrc]
  simp only [hcode, if_neg (not_not_intro (rfl : aecOk = aecOk))]
  cases c₁.writeProduced fs with
  | error e => rfl
  | ok r => rfl

/-- What libaec answers on a block: the bytes carried, and the front of the buffer. -/
abbrev blockAnswer (api : Aec σ) (c : CodecImpl σ) (s : σ) (inbuf : List U8) : Answer σ U8 :=
  api.coder.call s .noFlush ((c.carry ++ inbuf).take streamChunk) c.dStrm.availOut

/-- The call of a block. -/
theorem Roomy.codeBlock (h : Roomy c) (api : Aec σ) (hs : c.dStrm.state = some s)
    (hsrc : streamChunk - c.dStreamAvailIn ≤ inbuf.length) :
    (c.filled inbuf).codeStream api .noFlush = .ok ((c.blockAnswer api s inbuf).status,
      (c.filled inbuf).coded (c.blockAnswer api s inbuf)) := by
  have hcode := (h.filled inbuf).codeStream api .noFlush (s := s) hs
  rw [h.carry_filled hsrc] at hcode
  exact hcode

/-- **A block aborts when its call overruns.** -/
theorem Roomy.streamBlock_of_overruns (h : Roomy c) (hs : c.dStrm.state = some s)
    (hsrc : streamChunk - c.dStreamAvailIn ≤ inbuf.length)
    (hover : c.Overruns (c.blockAnswer api s inbuf)) (fs : FileSystem) :
    c.streamBlock api fs inbuf = .error .outOfBounds := by
  have hcode := h.codeBlock api hs hsrc
  rw [hover.1] at hcode
  have hwrite := Overruns.writeProduced (c := c.filled inbuf) hover (h.filled inbuf) fs
  rw [h.streamBlock_of_ok hsrc hcode, hwrite]
  rfl

/-- **A block that does not overrun goes through**, and once a call has succeeded the object is
sound. -/
theorem Roomy.streamBlock (h : Roomy c) (hs : c.dStrm.state = some s)
    (hsrc : streamChunk - c.dStreamAvailIn ≤ inbuf.length)
    (hfit : ¬ c.Overruns (c.blockAnswer api s inbuf)) (fs : FileSystem) :
    ∃ status c' fs', c.streamBlock api fs inbuf = .ok (status, c', fs') ∧ Goes api c c'
      ∧ c'.dStrm.state ≠ none ∧ (status = aecOk → Sound c') := by
  have hcode := h.codeBlock api hs hsrc
  have hmade := api.coder.produced_le s .noFlush ((c.carry ++ inbuf).take streamChunk)
    c.dStrm.availOut
  have hroomy := (h.filled inbuf).coded (c.blockAnswer api s inbuf)
  by_cases hok : (c.blockAnswer api s inbuf).status = aecOk
  · obtain ⟨output, fs', hwrite⟩ := (h.filled inbuf).writeProduced hok hfit fs
    have hsound := (hroomy.withOutput output).settle
    rw [hok] at hcode
    refine ⟨aecOk, _, fs', ?_, ⟨hsound.roomy, fun _ _ => hsound⟩, ?_, fun _ => hsound⟩
    · rw [h.streamBlock_of_ok hsrc hcode, hwrite]
      rfl
    · rw [settle_state]
      exact Option.some_ne_none _
  · refine ⟨_, _, fs, h.streamBlock_of_ne hsrc hcode hok, ⟨hroomy, ?_⟩, Option.some_ne_none _,
      fun hzero => absurd hzero hok⟩
    intro counts hsound
    exact (hsound.filled inbuf).coded (counts ..) hmade

/-- A block of a sound object goes through, whatever its status. -/
theorem Sound.streamBlock (h : Sound c) (hcoder : c.dStrm.state ≠ none) (api : Aec σ)
    (fs : FileSystem) (hsrc : streamChunk - c.dStreamAvailIn ≤ inbuf.length) :
    ∃ status c' fs', c.streamBlock api fs inbuf = .ok (status, c', fs') ∧ Goes api c c'
      ∧ c'.dStrm.state ≠ none ∧ (status = aecOk → Sound c') := by
  obtain ⟨s, hs⟩ := Option.ne_none_iff_exists'.mp hcoder
  exact h.roomy.streamBlock hs hsrc
    (h.not_overruns (api.coder.counted_eq _ _ _ _) (api.coder.produced_le ..)) fs

/-! ## The loop -/

/-- The object after a block: nothing is carried. -/
def emptied (c : CodecImpl σ) : CodecImpl σ :=
  { c with dStreamAvailIn := 0, dStrm := { c.dStrm with availIn := 0 } }

/-- It stays sound. -/
theorem Sound.emptied (h : Sound c) : Sound c.emptied :=
  { h with availIn_le := Nat.zero_le streamChunk }

/-- **The leftover bytes** are carried when they do not fill a block. -/
theorem Sound.streamRest (h : Sound c) (fs : FileSystem) (hempty : c.dStreamAvailIn = 0)
    (hlt : inbuf.length < streamChunk) :
    ∃ status c' fs', c.streamRest fs inbuf inbuf.length = .ok (status, c', fs')
      ∧ c'.dStrm.state = c.dStrm.state ∧ Sound c' := by
  have hroom : c.dStreamAvailIn + inbuf.length ≤ streamChunk := by omega
  unfold CodecImpl.streamRest
  rw [h.memcpy hroom (Nat.le_refl _)]
  by_cases hne : inbuf.length ≠ 0
  · rw [if_pos hne]
    exact ⟨_, _, _, rfl, rfl, { h with availIn_le := Nat.le_of_lt hlt }⟩
  · rw [if_neg hne]
    exact ⟨_, _, _, rfl, rfl, h⟩

/-- **A turn of the loop** is a block; the bytes that went into it are taken off the buffer. -/
theorem CarryFits.streamLoop_next (h : CarryFits c) {c₁ : CodecImpl σ} {fs₁ : FileSystem}
    (hfull : streamChunk ≤ c.dStreamAvailIn + inbuf.length) (hbound : inbuf.length < 2 ^ 63)
    (hturn : c.streamBlock api fs inbuf = .ok (aecOk, c₁, fs₁)) :
    c.streamLoop api fs inbuf inbuf.length
        (((c.dStreamAvailIn + inbuf.length : Nat) : Int) - (streamChunk : Int))
      = c₁.emptied.streamLoop api fs₁ (inbuf.drop (streamChunk - c.dStreamAvailIn))
          (inbuf.drop (streamChunk - c.dStreamAvailIn)).length
          (((c₁.emptied.dStreamAvailIn + (inbuf.drop (streamChunk - c.dStreamAvailIn)).length : Nat)
            : Int) - (streamChunk : Int)) := by
  have hle := h.availIn_le
  obtain ⟨hrem, htaken, hleft⟩ := turn_differences hle hfull hbound
  have hdrop : c.dStreamAvailIn + inbuf.length - streamChunk
      = (inbuf.drop (streamChunk - c.dStreamAvailIn)).length := by
    rw [List.length_drop]
    omega
  have hshort : (inbuf.drop (streamChunk - c.dStreamAvailIn)).length < 2 ^ 63 := by
    rw [List.length_drop]
    omega
  rw [hdrop] at hleft
  rw [CodecImpl.streamLoop, if_pos (by omega), hturn]
  simp only [hrem, htaken, hleft, if_neg (not_not_intro (rfl : aecOk = aecOk)),
    remainder_eq (Nat.zero_le streamChunk) hshort]
  rfl

/-- A failing call ends it. -/
theorem streamLoop_stop {c₁ : CodecImpl σ} {fs₁ : FileSystem} {status : Int}
    (hfull : streamChunk ≤ c.dStreamAvailIn + inbuf.length)
    (hturn : c.streamBlock api fs inbuf = .ok (status, c₁, fs₁)) (herr : status ≠ aecOk) :
    c.streamLoop api fs inbuf inbuf.length
        (((c.dStreamAvailIn + inbuf.length : Nat) : Int) - (streamChunk : Int))
      = .ok (status, c₁, fs₁) := by
  rw [CodecImpl.streamLoop, if_pos (by omega), hturn]
  simp only [if_pos herr]

/-- So does an abort. -/
theorem streamLoop_abort {e : Abort} (hfull : streamChunk ≤ c.dStreamAvailIn + inbuf.length)
    (hturn : c.streamBlock api fs inbuf = .error e) :
    c.streamLoop api fs inbuf inbuf.length
      (((c.dStreamAvailIn + inbuf.length : Nat) : Int) - (streamChunk : Int)) = .error e := by
  rw [CodecImpl.streamLoop, if_pos (by omega), hturn]

/-- **The loop** ends: every turn takes a block off, or a failing call leaves the function. -/
theorem Sound.streamLoop (h : Sound c) (hcoder : c.dStrm.state ≠ none) (api : Aec σ)
    (fs : FileSystem)
    (hblock : streamChunk ≤ c.dStreamAvailIn + inbuf.length ∨ c.dStreamAvailIn = 0)
    (hbound : inbuf.length < 2 ^ 63) :
    ∃ status c' fs', c.streamLoop api fs inbuf inbuf.length
        (((c.dStreamAvailIn + inbuf.length : Nat) : Int) - (streamChunk : Int))
        = .ok (status, c', fs') ∧ c'.Roomy ∧ (api.CountsMade → c'.Sound)
          ∧ c'.dStrm.state ≠ none := by
  -- on the number of bytes carried and passed
  induction hk : c.dStreamAvailIn + inbuf.length using Nat.strongRecOn generalizing inbuf c fs with
  | ind k ih =>
    subst hk
    have hchunk := streamChunk_eq
    have hle := h.availIn_le
    by_cases hfull : streamChunk ≤ c.dStreamAvailIn + inbuf.length
    · have hsrc : streamChunk - c.dStreamAvailIn ≤ inbuf.length := by omega
      obtain ⟨status, c₁, fs₁, hturn, hgoes, hcoder₁, hsound⟩ := h.streamBlock hcoder api fs hsrc
      by_cases herr : status ≠ aecOk
      · exact ⟨status, c₁, fs₁, streamLoop_stop hfull hturn herr, hgoes.roomy,
          fun counts => hgoes.sound counts h, hcoder₁⟩
      · rw [not_not.mp herr] at hturn
        rw [h.streamLoop_next hfull hbound hturn]
        have hlen := List.length_drop (i := streamChunk - c.dStreamAvailIn) (l := inbuf)
        have hnone : c₁.emptied.dStreamAvailIn = 0 := rfl
        have hsound₁ : Sound c₁ := hsound (not_not.mp herr)
        refine ih _ ?_ hsound₁.emptied hcoder₁ fs₁ (Or.inr hnone) ?_ rfl
        · omega
        · omega
    · have hempty := hblock.resolve_left hfull
      rw [CodecImpl.streamLoop, if_neg (by omega)]
      have hlt : inbuf.length < streamChunk := by omega
      obtain ⟨status, c', fs', hrest, hstate, hsound⟩ := h.streamRest fs hempty hlt
      exact ⟨status, c', fs', hrest, hsound.roomy, fun _ => hsound, hstate ▸ hcoder⟩

end Step

/-! ## The streaming functions -/

/-- The abort of `stream_compress` or `stream_decompress`, which the first block decides. -/
def pushAbort (api : Aec σ) (c : CodecImpl σ) (inbuf : InBuf) : Option Abort :=
  if c.dStreamAvailIn + inbuf.bytes.length < streamChunk then none
  else c.callAbort api .noFlush ((c.carry ++ inbuf.bytes).take streamChunk)

/-- That of a sound object: the coder is needed for a full block. -/
def blockAbort (c : CodecImpl σ) (inbuf : InBuf) : Option Abort :=
  if c.dStreamAvailIn + inbuf.bytes.length < streamChunk then none else c.coderAbort

section Calls

variable {c : CodecImpl σ}

/-- A buffer on a sound object aborts for the want of a coder only. -/
theorem Sound.pushAbort (h : Sound c) (api : Aec σ) (inbuf : InBuf) :
    c.pushAbort api inbuf = c.blockAbort inbuf := by
  unfold CodecImpl.pushAbort blockAbort
  rw [h.callAbort]

/-- With a coder state there is nothing to want. -/
theorem coderAbort_eq_none (hcoder : c.dStrm.state ≠ none) : c.coderAbort = none :=
  if_pos (Option.isSome_iff_ne_none.mpr hcoder)

/-- The object that has collected a buffer. -/
def collect (c : CodecImpl σ) (bytes : List U8) : CodecImpl σ :=
  { c with
    dTmpStream := c.dTmpStream.splice c.dStreamAvailIn bytes
    dStreamAvailIn := c.dStreamAvailIn + bytes.length
    dStrm := { c.dStrm with availIn := c.dStreamAvailIn + bytes.length } }

/-- A buffer that fills no block is collected. -/
theorem CarryFits.streamCode_of_lt (h : CarryFits c) (api : Aec σ) (fs : FileSystem)
    {inbuf : InBuf} (hlt : c.dStreamAvailIn + inbuf.bytes.length < streamChunk) :
    c.streamCode api fs inbuf = .ok (aecOk, c.collect inbuf.bytes, fs) := by
  have hsum := carried_add h.availIn_le inbuf.bounded
  have hcopy := h.memcpy (Nat.le_of_lt hlt) (Nat.le_refl inbuf.bytes.length)
  rw [List.take_length] at hcopy
  unfold CodecImpl.streamCode
  simp only [hsum, if_pos hlt, hcopy]
  rfl

/-- A buffer that fills a block goes to the loop. -/
theorem CarryFits.streamCode_of_le (h : CarryFits c) (api : Aec σ) (fs : FileSystem)
    {inbuf : InBuf} (hfull : streamChunk ≤ c.dStreamAvailIn + inbuf.bytes.length) :
    c.streamCode api fs inbuf = c.streamLoop api fs inbuf.bytes inbuf.bytes.length
      (((c.dStreamAvailIn + inbuf.bytes.length : Nat) : Int) - (streamChunk : Int)) := by
  have hsum := carried_add h.availIn_le inbuf.bounded
  have hrem := remainder_eq h.availIn_le inbuf.bounded
  rw [hsum] at hrem
  unfold CodecImpl.streamCode
  simp only [hsum, if_neg (Nat.not_lt.mpr hfull), hrem]

/-- Without a coder a full block is too much. -/
theorem CarryFits.streamCode_of_none (h : CarryFits c) (hs : c.dStrm.state = none) (fs : FileSystem)
    {inbuf : InBuf} (hfull : streamChunk ≤ c.dStreamAvailIn + inbuf.bytes.length) :
    c.streamCode api fs inbuf = .error .nullCoderState := by
  have hsrc : streamChunk - c.dStreamAvailIn ≤ inbuf.bytes.length := by omega
  have hcode : (c.filled inbuf.bytes).codeStream api .noFlush = .error .nullCoderState :=
    codeStream_of_none api (c.filled inbuf.bytes) hs .noFlush
  have hblock : c.streamBlock api fs inbuf.bytes = .error .nullCoderState :=
    h.streamBlock_of_error hsrc hcode
  rw [h.streamCode_of_le api fs hfull, streamLoop_abort hfull hblock]

/-- **`stream_compress` and `stream_decompress`.** Behind a first block that succeeds the loop runs
on a sound object. -/
theorem Roomy.streamCode (h : Roomy c) (api : Aec σ) (fs : FileSystem) (inbuf : InBuf) :
    (c.streamCode api fs inbuf).Ends (c.pushAbort api inbuf)
      fun c' => Goes api c c' ∧ (c.dStrm.state ≠ none → c'.dStrm.state ≠ none) := by
  unfold CodecImpl.pushAbort
  by_cases hlt : c.dStreamAvailIn + inbuf.bytes.length < streamChunk
  · rw [h.streamCode_of_lt api fs hlt, if_pos hlt]
    have hle := Nat.le_of_lt hlt
    exact Outcome.ends_ok ⟨⟨{ h with availIn_le := hle },
      fun _ hs => { hs with availIn_le := hle }⟩, id⟩
  · have hfull := Nat.le_of_not_lt hlt
    have hsrc : streamChunk - c.dStreamAvailIn ≤ inbuf.bytes.length := by omega
    rw [if_neg hlt]
    cases hs : c.dStrm.state with
    | none =>
      rw [h.streamCode_of_none hs fs hfull, callAbort_of_none hs]
      exact Outcome.ends_error _
    | some s =>
      rw [h.streamCode_of_le api fs hfull, callAbort_of_some hs]
      by_cases hover : c.Overruns (c.blockAnswer api s inbuf.bytes)
      · rw [streamLoop_abort hfull (h.streamBlock_of_overruns hs hsrc hover fs), if_pos hover]
        exact Outcome.ends_error _
      · obtain ⟨status, c₁, fs₁, hturn, hgoes, hcoder, hsound⟩ := h.streamBlock hs hsrc hover fs
        rw [if_neg hover]
        by_cases hok : status = aecOk
        · have hbound := inbuf.bounded
          have hshort : (inbuf.bytes.drop (streamChunk - c.dStreamAvailIn)).length < 2 ^ 63 := by
            rw [List.length_drop]
            omega
          obtain ⟨status', c₂, fs₂, hrest, hroomy₂, hsound₂, hcoder₂⟩ :=
            (hsound hok).emptied.streamLoop hcoder api fs₁ (Or.inr rfl) hshort
          rw [hok] at hturn
          rw [h.streamLoop_next hfull hbound hturn, hrest]
          exact Outcome.ends_ok ⟨⟨hroomy₂, fun counts _ => hsound₂ counts⟩, fun _ => hcoder₂⟩
        · rw [streamLoop_stop hfull hturn hok]
          exact Outcome.ends_ok ⟨hgoes, fun _ => hcoder⟩

/-- The base class after a file function that leaves the counters as they are. -/
theorem Goes.of_counters {base : IqzipImpl σ} (api : Aec σ) (h : Roomy c)
    (hbase : c.toIqzipImpl.SameCounters base) : Goes api c { c with toIqzipImpl := base } where
  roomy := { h with availOut_le := hbase.2.trans_le h.availOut_le }
  sound _ hs :=
    { hs with
      counted := by rw [hbase.1, hbase.2]; exact hs.counted }

/-- **An end whose call fails** leaves the coder and the output stream as they are. -/
theorem Roomy.streamFin_of_ne (h : Roomy c) {api : Aec σ} {s : σ} (hs : c.dStrm.state = some s)
    (mode : FlushMode) (fs : FileSystem)
    (herr : (api.coder.call s mode c.carry c.dStrm.availOut).status ≠ aecOk) :
    c.streamFin api mode fs
      = .ok (-1, c.coded (api.coder.call s mode c.carry c.dStrm.availOut), fs) := by
  unfold CodecImpl.streamFin
  rw [h.codeStream api mode hs]
  simp only [if_pos herr]

/-- **`stream_compress_fin` and `stream_decompress_fin`**: one call on what is carried, its write
and the end of the coder. -/
theorem Roomy.streamFin (h : Roomy c) (api : Aec σ) (mode : FlushMode) (fs : FileSystem) :
    (c.streamFin api mode fs).Ends (c.callAbort api mode c.carry) (Goes api c) := by
  unfold CodecImpl.streamFin
  cases hs : c.dStrm.state with
  | none =>
    rw [codeStream_of_none api c hs mode, callAbort_of_none hs]
    exact Outcome.ends_error _
  | some s =>
    rw [h.codeStream api mode hs, callAbort_of_some hs]
    have hmade := api.coder.produced_le s mode c.carry c.dStrm.availOut
    have hcount := fun counts : api.CountsMade => counts s mode c.carry c.dStrm.availOut
    generalize api.coder.call s mode c.carry c.dStrm.availOut = a at hmade hcount ⊢
    have hgoes : Goes api c (c.coded a) :=
      ⟨h.coded a, fun counts hs => hs.coded (hcount counts) hmade⟩
    by_cases hok : a.status = aecOk
    · by_cases hover : c.Overruns a
      · simp only [hok, if_neg (not_not_intro (rfl : aecOk = aecOk)), hover.writeProduced h fs,
          if_pos hover]
        exact Outcome.ends_error _
      · obtain ⟨output, fs', hwrite⟩ := h.writeProduced hok hover fs
        obtain ⟨status, base, hend, -⟩ := IqzipImpl.fin_of_state api fs'
          (show ({ c.coded a with outputStream := output } : CodecImpl σ).dStrm.state
            = some a.next from rfl)
        have hwritten : Roomy { c.coded a with outputStream := output } :=
          hgoes.roomy.withOutput output
        have hlast := Goes.of_counters api hwritten
          ((IqzipImpl.fin_ends ..).leaves _ _ _ hend)
        simp only [hok, if_neg (not_not_intro (rfl : aecOk = aecOk)), hwrite, hend, if_neg hover]
        refine Outcome.ends_ok ⟨hlast.roomy, fun counts hs => hlast.sound counts ?_⟩
        exact { hgoes.sound counts hs with }
    · have hover : ¬ c.Overruns a := fun hover => hok hover.1
      simp only [if_pos (show a.status ≠ aecOk from hok), if_neg hover]
      exact Outcome.ends_ok hgoes

/-- A sound object with a coder goes through every buffer, and keeps both when failing calls count
what they make. -/
theorem Sound.streamCode (h : Sound c) (hcoder : c.dStrm.state ≠ none) {api : Aec σ}
    (counts : api.CountsMade) (fs : FileSystem) (inbuf : InBuf) :
    ∃ status c' fs', c.streamCode api fs inbuf = .ok (status, c', fs') ∧ Sound c'
      ∧ c'.dStrm.state ≠ none := by
  have hends := h.roomy.streamCode api fs inbuf
  have hnone : c.pushAbort api inbuf = none := by
    rw [h.pushAbort, blockAbort, coderAbort_eq_none hcoder, ite_self]
  obtain ⟨status, c', fs', hrun⟩ := Outcome.returns_of_abort (hends.abort_eq.trans hnone)
  obtain ⟨hgoes, hkeeps⟩ := hends.leaves _ _ _ hrun
  exact ⟨status, c', fs', hrun, hgoes.sound counts h, hkeeps hcoder⟩

/-- Its session can end. -/
theorem Sound.streamFin (h : Sound c) (hcoder : c.dStrm.state ≠ none) (api : Aec σ)
    (mode : FlushMode) (fs : FileSystem) : ∃ r, c.streamFin api mode fs = .ok r := by
  have hends := h.roomy.streamFin api mode fs
  obtain ⟨status, c', fs', hrun⟩ := Outcome.returns_of_abort
    (hends.abort_eq.trans ((h.callAbort api mode c.carry).trans (coderAbort_eq_none hcoder)))
  exact ⟨_, hrun⟩

end Calls

/-- Cleared counters claim nothing, or a negative length. -/
theorem Fits.sound {c : CodecImpl σ} (h : Fits c) (hcount : c.dTotalOut ≤ 2 ^ 63)
    (hclear : c.toIqzipImpl.Cleared) : Sound c where
  toFits := h
  counted := by
    rw [hclear.1, hclear.2]
    exact .cleared hcount

/-- And leave all of `d_out` free. -/
theorem Fits.roomy {c : CodecImpl σ} (h : Fits c) (hclear : c.toIqzipImpl.Cleared) : Roomy c where
  toFits := h
  availOut_le := hclear.2.le

end CodecImpl

/-! ## The init functions -/

/-- An object after an init function: cleared counters, the buffers and the count of before. -/
structure CodecImpl.Reset (c c' : CodecImpl σ) : Prop where
  cleared : c'.toIqzipImpl.Cleared
  tmpStream : c'.dTmpStream = c.dTmpStream
  availIn : c'.dStreamAvailIn = c.dStreamAvailIn
  out : c'.dOut = c.dOut
  totalOut : c'.dTotalOut = c.dTotalOut

/-- After an init the carry fits when it did before. -/
theorem CodecImpl.Reset.fits {c c' : CodecImpl σ} (h : c.Reset c') (hfits : c.Fits) : c'.Fits where
  availIn_le := h.availIn ▸ hfits.availIn_le
  tmpSize := h.tmpStream ▸ hfits.tmpSize
  outSize := h.out ▸ hfits.outSize

/-- And there is room. -/
theorem CodecImpl.Reset.roomy {c c' : CodecImpl σ} (h : c.Reset c') (hfits : c.Fits) : c'.Roomy :=
  (h.fits hfits).roomy h.cleared

/-- An init leaves the object sound, whatever has been counted below `2^63`. -/
theorem CodecImpl.Reset.sound {c c' : CodecImpl σ} (h : c.Reset c') (hfits : c.Fits)
    (hcount : c.dTotalOut ≤ 2 ^ 63) : c'.Sound :=
  (h.fits hfits).sound (h.totalOut.trans_le hcount) h.cleared

/-- `stream_compress_init`, whatever it returns. -/
theorem CodecImpl.streamCompressInit_ends (c : CodecImpl σ) (api : Aec σ) (fs : FileSystem)
    (fout : String) : (c.streamCompressInit api fs fout).Ends (writeAbort fs fout) c.Reset := by
  unfold streamCompressInit writeAbort IqzipCompressionHeader.writeHeaderToFile
  cases fs.writable fout with
  | false => exact Outcome.ends_error _
  | true =>
    simp only [if_true]
    split_ifs
    · exact Outcome.ends_ok ⟨⟨rfl, rfl⟩, rfl, rfl, rfl, rfl⟩
    · exact Outcome.ends_ok ⟨⟨rfl, rfl⟩, rfl, rfl, rfl, rfl⟩

/-- `decompress_init`, whatever it returns. -/
theorem DecompressorImpl.decompressInit_reset {api : Aec σ} {d d' : DecompressorImpl σ}
    {fs fs' : FileSystem} {fin fout : String} {status : Int}
    (h : d.decompressInit api fs fin fout = .ok (status, d', fs')) :
    d.toCodecImpl.Reset d'.toCodecImpl := by
  unfold decompressInit at h
  cases hread : d.readHeader fs fin with
  | error e =>
    rw [hread] at h
    cases h
  | ok d₁ =>
    have hkept : d.toCodecImpl.Reset d₁.toCodecImpl := by
      unfold readHeader at hread
      split at hread
      · cases hread
      · cases hread
        exact ⟨⟨rfl, rfl⟩, rfl, rfl, rfl, rfl⟩
    rw [hread] at h
    dsimp only at h
    split_ifs at h <;> cases h <;> exact { hkept with }

end IQzip
