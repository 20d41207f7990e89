import IQzip.Impl
import IQzip.Library.Pump

/-! # The file loops

`compress()` and `decompress()` run the same loop, one around `aec_encode` and one around
`aec_decode`: read a chunk of the input file when the last one is used up, call the coder, write
what it produced. `FileLoop.step` is one turn of it, over the locals and members it touches.

The loop keeps the coder's 64-bit output count in an `int`, so the length it writes is right below
`2^31` bytes only (`writeLength_of_lt`, `writeLength_of_ge`). Below that bound a turn is a turn of
`Pump.step` (`Represents.turn`); at the bound it writes past its buffer. -/

namespace IQzip

open Library

variable {σ : Type}

/-! ## The loop -/

/-- `d_strm.total_out - total_out`, a `size_t` minus an `int`. -/
def writeLength (totalOut : Nat) (counter : Int) : Nat := sizeSub totalOut (sizeOfInt counter)

/-- The loop of `compress()` and `decompress()`: the object, the files, the buffer `out`, and the
locals `total_out`, `input_avail` and `output_avail`. -/
structure FileLoop (σ : Type) where
  impl : IqzipImpl σ
  fs : FileSystem
  out : Buffer
  totalOut : Int
  inputAvail : Bool
  outputAvail : Bool

namespace FileLoop

/-- The loop before its first turn; `out` is what `new char[CHUNK]` returns. -/
def start (c : IqzipImpl σ) (fs : FileSystem) (out : Buffer) : FileLoop σ :=
  { impl := { c with dStrm := { c.dStrm with nextOut := 0 } }
    fs := fs
    out := out
    totalOut := 0
    inputAvail := true
    outputAvail := true }

/-- Read a chunk when the coder has used the last one and the input has not ended. -/
def refill (l : FileLoop σ) : FileLoop σ :=
  if l.impl.dStrm.availIn = 0 ∧ l.inputAvail = true then
    let (bytes, input) := l.impl.inputStream.read l.fs chunk
    { l with
      impl :=
        { l.impl with
          inputStream := input
          dStrm := { l.impl.dStrm with nextIn := bytes, availIn := bytes.length } }
      -- a short read is the last one; a full one at the end of the file is followed by an empty one
      inputAvail := if bytes.length ≠ chunk then false else l.inputAvail }
  else l

/-- Write what the counters say was produced, and rewind the output buffer. -/
def account (l : FileLoop σ) : Except Abort (FileLoop σ) :=
  let n := writeLength l.impl.dStrm.totalOut l.totalOut
  if 0 < n then
    match l.impl.outputStream.write l.fs l.out n with
    | .error e => .error e
    | .ok (output, fs) =>
      .ok
        { l with
          impl :=
            { l.impl with
              outputStream := output
              dStrm := { l.impl.dStrm with nextOut := 0, availOut := chunk } }
          fs := fs
          -- the `int` takes the low 32 bits of the 64-bit count
          totalOut := intOfSize l.impl.dStrm.totalOut
          outputAvail := true }
  else .ok { l with outputAvail := false }

/-- The loop with the stream and the buffer a coder call left. -/
def coded (l : FileLoop σ) (strm : AecStream σ) (out : Buffer) : FileLoop σ :=
  { l with impl := { l.impl with dStrm := strm }, out := out }

/-- One turn: leave when both flags are down, and on an error of the coder. -/
def step (api : Aec σ) (l : FileLoop σ) : FileLoop σ ⊕ Except Abort (Int × FileLoop σ) :=
  if l.inputAvail || l.outputAvail then
    let l := l.refill
    match api.code .noFlush l.impl.dStrm l.out with
    | .error e => .inr (.error e)
    | .ok (status, strm, out) =>
      -- the source leaves the function here, with the output of the call unwritten
      if status ≠ aecOk then .inr (.ok (status, l.coded strm out))
      else
        match (l.coded strm out).account with
        | .error e => .inr (.error e)
        | .ok l => .inl l
  else .inr (.ok (aecOk, l))

/-- The end of `compress()` after the loop: flush the coder and write what that produced. -/
def flush (api : Aec σ) (l : FileLoop σ) : Outcome (IqzipImpl σ) :=
  match api.code .flush l.impl.dStrm l.out with
  | .error e => .error e
  | .ok (status, strm, out) =>
    let l := l.coded strm out
    if status ≠ aecOk then .ok (-1, l.impl, l.fs)
    else
      let n := writeLength l.impl.dStrm.totalOut l.totalOut
      if 0 < n then
        match l.impl.outputStream.write l.fs l.out n with
        | .error e => .error e
        | .ok (output, fs) => .ok (0, { l.impl with outputStream := output }, fs)
      else .ok (0, l.impl, l.fs)

end FileLoop

/-! ## The written length -/

/-- **Below `2^31` the length is the number of bytes produced.** -/
theorem writeLength_of_lt {n k : Nat} (hn : n < 2 ^ 31) (hk : k ≤ chunk) :
    writeLength (n + k) (intOfSize n) = k := by
  rw [writeLength, sizeOfInt_intOfSize hn, sizeSub_of_le (Nat.le_add_right n k)]
  · omega
  · have := chunk_eq
    unfold sizeModulus
    omega

/-- **From `2^31` on the length is off by `2^32`.** -/
theorem writeLength_of_ge {n k : Nat} (hlo : 2 ^ 31 ≤ n) (hhi : n < 2 ^ 32) (hk : k ≤ chunk) :
    writeLength (n + k) (intOfSize n) = k + 2 ^ 32 := by
  rw [writeLength, sizeOfInt_intOfSize_of_ge hlo hhi]
  have := chunk_eq
  -- sign extension adds `2^64 - 2^32`, and the subtraction wraps that away but for `2^32`
  unfold sizeSub sizeModulus
  omega

/-! ## The output side of a turn -/

namespace FileLoop

/-- The counters agree with `made`, what the coder has produced so far, and the output file holds it
behind `base`. Nothing is said about the input. -/
structure Counted (fout : String) (base : List U8) (l : FileLoop σ) (made : List U8) : Prop where
  output : l.impl.outputStream = .opened fout false
  file : l.fs.content fout = some (base ++ made)
  nextOut : l.impl.dStrm.nextOut = 0
  availOut : l.impl.dStrm.availOut = chunk
  outSize : l.out.size = chunk
  totalOut : l.impl.dStrm.totalOut = made.length
  counter : l.totalOut = intOfSize made.length
  small : made.length < 2 ^ 32

/-- The loop after a call whose output has been written, which leaves `content` in the output
file. -/
def settled (l : FileLoop σ) (fout : String) (content : List U8) (a : Answer σ U8) : FileLoop σ :=
  { l with
    impl :=
      { l.impl with dStrm := { l.impl.dStrm.after a with nextOut := 0, availOut := chunk } }
    fs := l.fs.put fout content
    out := l.out.splice 0 a.produced
    totalOut := intOfSize (l.impl.dStrm.after a).totalOut
    outputAvail := !a.produced.isEmpty }

namespace Counted

variable {fout : String} {base made : List U8} {l : FileLoop σ} {a : Answer σ U8}

/-- The count after a call does not wrap. -/
theorem totalOut_after (h : Counted fout base l made) (hcount : a.counted = a.produced.length)
    (ha : a.produced.length ≤ chunk) :
    (l.impl.dStrm.after a).totalOut = made.length + a.produced.length := by
  have := h.small
  have := chunk_eq
  simp only [AecStream.after, h.totalOut, hcount]
  unfold sizeAdd sizeModulus
  omega

/-- Below the bound the length to write is what the call produced. -/
theorem writeLength_after (h : Counted fout base l made) (hcount : a.counted = a.produced.length)
    (ha : a.produced.length ≤ chunk) (hlt : made.length < 2 ^ 31) :
    writeLength (l.impl.dStrm.after a).totalOut l.totalOut = a.produced.length := by
  rw [h.totalOut_after hcount ha, h.counter, writeLength_of_lt hlt ha]

/-- At the bound it is `2^32` more. -/
theorem writeLength_after_of_ge (h : Counted fout base l made)
    (hcount : a.counted = a.produced.length) (ha : a.produced.length ≤ chunk)
    (hge : 2 ^ 31 ≤ made.length) :
    writeLength (l.impl.dStrm.after a).totalOut l.totalOut = a.produced.length + 2 ^ 32 := by
  rw [h.totalOut_after hcount ha, h.counter, writeLength_of_ge hge h.small ha]

/-- The write of what a call produced. -/
theorem write (h : Counted fout base l made) (ha : a.produced.length ≤ chunk) :
    l.impl.outputStream.write l.fs (l.out.splice 0 a.produced) a.produced.length
      = .ok (.opened fout false, l.fs.put fout (base ++ (made ++ a.produced))) := by
  have hchunk := chunk_eq
  have hroom : a.produced.length ≤ (l.out.splice 0 a.produced).size := by
    rw [Buffer.size_splice, h.outSize]
    exact ha
  rw [h.output, OutputStream.write_of_le _ _ (by omega) hroom, Buffer.load_splice_zero,
    FileSystem.bytesAt, h.file, Option.getD_some, List.append_assoc]

/-- **The bookkeeping below the bound**: exactly what the call produced is written. -/
theorem account (h : Counted fout base l made) (hcount : a.counted = a.produced.length)
    (ha : a.produced.length ≤ chunk) (hlt : made.length < 2 ^ 31) :
    (l.coded (l.impl.dStrm.after a) (l.out.splice 0 a.produced)).account
      = .ok (l.settled fout (base ++ (made ++ a.produced)) a) := by
  have hn := h.writeLength_after hcount ha hlt
  unfold FileLoop.account
  simp only [coded, hn]
  -- nothing produced: the counters stay, and nothing is written
  by_cases hnil : a.produced = []
  · have hfs : l.fs.put fout (base ++ made) = l.fs := FileSystem.put_eq_self h.file
    have hstrm : l.impl.dStrm.after a
        = { l.impl.dStrm.after a with nextOut := 0, availOut := chunk } := by
      simp only [AecStream.after, hnil, List.length_nil, h.nextOut, h.availOut, Nat.sub_zero]
    have htotal : l.totalOut = intOfSize (l.impl.dStrm.after a).totalOut := by
      rw [h.totalOut_after hcount ha, hnil, List.length_nil, Nat.add_zero, h.counter]
    rw [hnil, List.length_nil, if_neg (Nat.lt_irrefl 0), settled, hnil, List.append_nil, hfs,
      ← htotal, ← hstrm]
    rfl
  · rw [if_pos (List.length_pos_iff.mpr hnil)]
    simp only [h.write ha]
    rw [settled]
    simp [hnil, h.output]

/-- **The bookkeeping at the bound** writes past the buffer. -/
theorem account_of_ge (h : Counted fout base l made) (hcount : a.counted = a.produced.length)
    (ha : a.produced.length ≤ chunk) (hge : 2 ^ 31 ≤ made.length) :
    (l.coded (l.impl.dStrm.after a) (l.out.splice 0 a.produced)).account
      = .error .outOfBounds := by
  have hn := h.writeLength_after_of_ge hcount ha hge
  have := chunk_eq
  have hwrite : l.impl.outputStream.write l.fs (l.out.splice 0 a.produced)
      (a.produced.length + 2 ^ 32) = .error .outOfBounds := by
    rw [h.output, OutputStream.write_opened _ _ _ (by omega),
      if_pos (by rw [Buffer.size_splice, h.outSize]; omega)]
  unfold FileLoop.account
  simp only [coded, hn]
  rw [if_pos (by omega)]
  simp only [hwrite]

/-- **The flushing call below the bound**: exactly what it produced is written. -/
theorem flush {api : Aec σ} (h : Counted fout base l made)
    (hcode : api.code .flush l.impl.dStrm l.out
      = .ok (a.status, l.impl.dStrm.after a, l.out.splice 0 a.produced))
    (hok : a.status = 0) (hcount : a.counted = a.produced.length) (ha : a.produced.length ≤ chunk)
    (hlt : made.length < 2 ^ 31) :
    l.flush api = .ok (0, { l.impl with dStrm := l.impl.dStrm.after a },
      l.fs.put fout (base ++ (made ++ a.produced))) := by
  unfold FileLoop.flush
  simp only [hcode, coded, h.writeLength_after hcount ha hlt]
  rw [if_neg (show ¬ _ ≠ aecOk from not_not_intro hok)]
  by_cases hnil : a.produced = []
  · rw [if_neg (by rw [hnil]; exact Nat.lt_irrefl 0), hnil, List.append_nil,
      FileSystem.put_eq_self h.file]
  · rw [if_pos (List.length_pos_iff.mpr hnil)]
    simp only [h.write ha]
    rw [← h.output]

/-- After the bookkeeping the counters agree again. -/
theorem settled (h : Counted fout base l made) (hcount : a.counted = a.produced.length)
    (ha : a.produced.length ≤ chunk) (hlt : made.length < 2 ^ 31) :
    Counted fout base (l.settled fout (base ++ (made ++ a.produced)) a) (made ++ a.produced) := by
  have htotal : (l.impl.dStrm.after a).totalOut = (made ++ a.produced).length := by
    rw [h.totalOut_after hcount ha, List.length_append]
  have hsmall : (made ++ a.produced).length < 2 ^ 32 := by
    have := chunk_eq
    rw [List.length_append]
    omega
  have hcounter : (l.settled fout (base ++ (made ++ a.produced)) a).totalOut
      = intOfSize (made ++ a.produced).length := by
    simp only [FileLoop.settled, htotal]
  exact ⟨h.output, FileSystem.content_put_self .., rfl, rfl, h.outSize, htotal, hcounter, hsmall⟩

/-- Reading input does not touch the output side. -/
theorem refill (h : Counted fout base l made) : Counted fout base l.refill made := by
  unfold FileLoop.refill
  split
  · generalize l.impl.inputStream.read l.fs chunk = got
    exact ⟨h.output, h.file, h.nextOut, h.availOut, h.outSize, h.totalOut, h.counter, h.small⟩
  · exact h

end Counted

end FileLoop

/-! ## Refinement of the pump -/

namespace FileLoop

/-- The loop over the files `fin` and `fout` stands for a pump: `fs₀` are the files before the loop,
with `base` in the output file. -/
structure Represents (fs₀ : FileSystem) (fin fout : String) (base : List U8) (l : FileLoop σ)
    (p : Pump σ U8 U8) : Prop where
  state : l.impl.dStrm.state = some p.state
  nextIn : l.impl.dStrm.nextIn = p.pending
  availIn : l.impl.dStrm.availIn = p.pending.length
  input : ∃ pos fail, l.impl.inputStream = .opened fin pos fail
    ∧ (fs₀.bytesAt fin).drop pos = p.unread ∧ (p.inputAvail = true → fail = false)
  output : l.impl.outputStream = .opened fout false
  files : l.fs = fs₀.put fout (base ++ p.written)
  nextOut : l.impl.dStrm.nextOut = 0
  availOut : l.impl.dStrm.availOut = chunk
  outSize : l.out.size = chunk
  totalOut : l.impl.dStrm.totalOut = p.written.length
  counter : l.totalOut = intOfSize p.written.length
  small : p.written.length < 2 ^ 32
  inputAvail : l.inputAvail = p.inputAvail
  outputAvail : l.outputAvail = p.outputAvail

/-- What a successful `compress_init` or `decompress_init` leaves: a fresh stream with a coder
state, both files open, the input at `pos` and `base` in the output. -/
structure Opened (c : IqzipImpl σ) (fs : FileSystem) (fin fout : String) (pos : Nat)
    (base : List U8) (s₀ : σ) : Prop where
  strm : c.dStrm = initStream c.config (some s₀)
  input : c.inputStream = .opened fin pos false
  output : c.outputStream = .opened fout false
  file : fs.content fout = some base

/-- The loop starts as a pump on the input file from `pos` on. -/
theorem Opened.represents {c : IqzipImpl σ} {fs : FileSystem} {fin fout : String} {pos : Nat}
    {base : List U8} {s₀ : σ} (h : Opened c fs fin fout pos base s₀) (cell : Nat → U8) :
    Represents fs fin fout base (start c fs { size := chunk, cell := cell })
      (Pump.start s₀ ((fs.bytesAt fin).drop pos)) where
  state := by simp only [start, h.strm, Pump.start, initStream]
  nextIn := by simp only [start, h.strm, Pump.start, initStream, freshStream]
  availIn := by simp only [start, h.strm, Pump.start, initStream, freshStream, List.length_nil]
  input := ⟨pos, false, h.input, rfl, fun _ => rfl⟩
  output := h.output
  files := by
    simp only [start, Pump.start, List.append_nil]
    exact (FileSystem.put_eq_self h.file).symm
  nextOut := rfl
  availOut := by simp only [start, h.strm, initStream, freshStream]
  outSize := rfl
  totalOut := by simp only [start, h.strm, Pump.start, initStream, freshStream, List.length_nil]
  counter := intOfSize_zero.symm
  small := Nat.two_pow_pos 32
  inputAvail := rfl
  outputAvail := rfl

section Refinement

variable {api : Aec σ} {fs₀ : FileSystem} {fin fout : String} {base : List U8} {l : FileLoop σ}
  {p : Pump σ U8 U8}

/-- Reading a chunk of the file is reading a chunk of the source. -/
theorem Represents.refill (hne : fin ≠ fout) (h : Represents fs₀ fin fout base l p) :
    Represents fs₀ fin fout base l.refill (p.refill chunk) := by
  obtain ⟨pos, fail, hopen, hunread, hgood⟩ := h.input
  by_cases hread : (p.pending.isEmpty && p.inputAvail) = true
  · have hflags : p.pending = [] ∧ p.inputAvail = true := by simpa using hread
    have hguard : l.impl.dStrm.availIn = 0 ∧ l.inputAvail = true := by
      rw [h.availIn, h.inputAvail, hflags.1]
      exact ⟨rfl, hflags.2⟩
    -- the loop writes to another file than the one it reads
    have hbytes : l.fs.bytesAt fin = fs₀.bytesAt fin := by
      rw [h.files, FileSystem.bytesAt, FileSystem.bytesAt, FileSystem.content_put_of_ne _ _ hne]
    have hstream : l.impl.inputStream = .opened fin pos false := by
      rw [hopen, hgood hflags.2]
    have hlen : (p.unread.take chunk).length = chunk ↔ chunk ≤ p.unread.length := by
      rw [List.length_take]
      omega
    have hmore : (if (p.unread.take chunk).length ≠ chunk then false else l.inputAvail)
        = decide (chunk ≤ p.unread.length) := by
      rw [h.inputAvail, hflags.2]
      by_cases hle : chunk ≤ p.unread.length <;> simp [hle]
    unfold FileLoop.refill Pump.refill
    rw [if_pos hguard, if_pos hread, hstream]
    simp only [InputStream.read, hbytes, hunread]
    exact
      { h with
        nextIn := rfl
        availIn := rfl
        input := by
          refine ⟨_, _, rfl, ?_, ?_⟩
          · rw [← List.drop_drop, hunread, List.length_take]
            rcases Nat.le_total chunk p.unread.length with hle | hle
            · rw [Nat.min_eq_left hle]
            · rw [Nat.min_eq_right hle, List.drop_length, List.drop_eq_nil_of_le hle]
          · intro hmore'
            have hle : chunk ≤ p.unread.length := of_decide_eq_true hmore'
            rw [hlen.mpr hle]
            simp
        inputAvail := hmore }
  · have hguard : ¬ (l.impl.dStrm.availIn = 0 ∧ l.inputAvail = true) := by
      rw [h.availIn, h.inputAvail, List.length_eq_zero_iff]
      simpa using hread
    rw [FileLoop.refill, if_neg hguard, Pump.refill, if_neg hread]
    exact h

/-- The coder call on the chunk. -/
theorem Represents.code (h : Represents fs₀ fin fout base l p) (mode : FlushMode) :
    api.code mode l.impl.dStrm l.out
      = .ok ((api.coder.call p.state mode p.pending chunk).status,
          l.impl.dStrm.after (api.coder.call p.state mode p.pending chunk),
          l.out.splice 0 (api.coder.call p.state mode p.pending chunk).produced) := by
  have hoffered : l.impl.dStrm.offered = p.pending := by
    rw [AecStream.offered, h.nextIn, h.availIn, List.take_length]
  have hin : l.impl.dStrm.availIn ≤ l.impl.dStrm.nextIn.length := by rw [h.nextIn, h.availIn]
  have hout : l.impl.dStrm.nextOut + l.impl.dStrm.availOut ≤ l.out.size := by
    rw [h.nextOut, h.availOut, h.outSize, Nat.zero_add]
  rw [Aec.code_eq_ok mode h.state hin hout, hoffered, h.availOut, h.nextOut]

/-- The output side of a loop that stands for a pump. -/
theorem Represents.counted (h : Represents fs₀ fin fout base l p) :
    Counted fout base l p.written where
  output := h.output
  file := by rw [h.files, FileSystem.content_put_self]
  nextOut := h.nextOut
  availOut := h.availOut
  outSize := h.outSize
  totalOut := h.totalOut
  counter := h.counter
  small := h.small

/-- The bookkeeping after a call, below the bound. -/
theorem Represents.account (h : Represents fs₀ fin fout base l p) {a : Answer σ U8}
    (hcount : a.counted = a.produced.length) (ha : a.produced.length ≤ chunk)
    (hlt : p.written.length < 2 ^ 31) :
    ∃ l', (l.coded (l.impl.dStrm.after a) (l.out.splice 0 a.produced)).account = .ok l'
      ∧ Represents fs₀ fin fout base l'
        { p with
          state := a.next
          pending := p.pending.drop a.consumed
          written := p.written ++ a.produced
          outputAvail := !a.produced.isEmpty } := by
  have hcounted := h.counted.settled hcount ha hlt
  refine ⟨_, h.counted.account hcount ha hlt, ?_⟩
  exact
    { state := rfl
      nextIn := by rw [← h.nextIn]; rfl
      availIn := by
        rw [List.length_drop, ← h.availIn]
        rfl
      input := h.input
      output := h.output
      files := by
        simp only [FileLoop.settled, h.files, FileSystem.put_put]
      nextOut := rfl
      availOut := rfl
      outSize := h.outSize
      totalOut := hcounted.totalOut
      counter := hcounted.counter
      small := hcounted.small
      inputAvail := h.inputAvail
      outputAvail := rfl }

/-- **A turn below the bound is a turn of the pump.** -/
theorem Represents.turn (hne : fin ≠ fout) (h : Represents fs₀ fin fout base l p)
    (hgo : (p.inputAvail || p.outputAvail) = true) (hok : (p.answer api.coder chunk).status = 0)
    (hlt : p.written.length < 2 ^ 31) :
    ∃ l', l.step api = .inl l' ∧ Represents fs₀ fin fout base l' (p.advance api.coder chunk) := by
  have hread := h.refill hne
  have hlt' : (p.refill chunk).written.length < 2 ^ 31 := by rwa [Pump.written_refill]
  have hgood : ¬ (p.answer api.coder chunk).status ≠ aecOk := not_not_intro hok
  obtain ⟨l', hl', hrep⟩ := hread.account (a := p.answer api.coder chunk)
    (api.coder.counted_eq _ _ _ _ hok) (api.coder.produced_le ..) hlt'
  refine ⟨l', ?_, ?_⟩
  · rw [FileLoop.step, h.inputAvail, h.outputAvail, if_pos hgo]
    simp only [hread.code .noFlush, Pump.state_refill]
    rw [← Pump.answer, if_neg hgood, hl']
  · rw [Pump.written_refill] at hrep
    exact hrep

/-- **At the bound the loop writes past its buffer.** -/
theorem Represents.overflow (hne : fin ≠ fout) (h : Represents fs₀ fin fout base l p)
    (hgo : (p.inputAvail || p.outputAvail) = true) (hok : (p.answer api.coder chunk).status = 0)
    (hge : 2 ^ 31 ≤ p.written.length) : l.step api = .inr (.error .outOfBounds) := by
  have hread := h.refill hne
  have hmade : (p.answer api.coder chunk).produced.length ≤ chunk := api.coder.produced_le ..
  have hcount : (p.answer api.coder chunk).counted = (p.answer api.coder chunk).produced.length :=
    api.coder.counted_eq _ _ _ _ hok
  have hge' : 2 ^ 31 ≤ (p.refill chunk).written.length := by rwa [Pump.written_refill]
  have hgood : ¬ (p.answer api.coder chunk).status ≠ aecOk := not_not_intro hok
  rw [FileLoop.step, h.inputAvail, h.outputAvail, if_pos hgo]
  simp only [hread.code .noFlush, Pump.state_refill]
  rw [← Pump.answer, if_neg hgood, hread.counted.account_of_ge hcount hmade hge']

/-- An error of the coder leaves the loop. -/
theorem Represents.failed (hne : fin ≠ fout) (h : Represents fs₀ fin fout base l p)
    (hgo : (p.inputAvail || p.outputAvail) = true) (herr : (p.answer api.coder chunk).status ≠ 0) :
    ∃ l', l.step api = .inr (.ok ((p.answer api.coder chunk).status, l')) := by
  rw [FileLoop.step, h.inputAvail, h.outputAvail, if_pos hgo]
  simp only [(h.refill hne).code .noFlush, Pump.state_refill]
  rw [← Pump.answer, if_pos (show (p.answer api.coder chunk).status ≠ aecOk from herr)]
  exact ⟨_, rfl⟩

/-- With both flags down the loop is left. -/
theorem Represents.leaves (h : Represents fs₀ fin fout base l p)
    (hstop : ¬ (p.inputAvail || p.outputAvail) = true) : l.step api = .inr (.ok (aecOk, l)) := by
  rw [FileLoop.step, h.inputAvail, h.outputAvail, if_neg hstop]

/-- **The flushing call below the bound.** -/
theorem Represents.flush (h : Represents fs₀ fin fout base l p)
    (hok : (api.coder.call p.state .flush p.pending chunk).status = 0)
    (hlt : p.written.length < 2 ^ 31) :
    ∃ c, l.flush api = .ok (0, c, fs₀.put fout (base ++ (p.written
        ++ (api.coder.call p.state .flush p.pending chunk).produced)))
      ∧ c.dStrm.state = some (api.coder.call p.state .flush p.pending chunk).next := by
  have hmade := api.coder.produced_le p.state .flush p.pending chunk
  have hflush := h.counted.flush (h.code .flush) hok (api.coder.counted_eq _ _ _ _ hok) hmade hlt
  rw [h.files, FileSystem.put_put] at hflush
  exact ⟨_, hflush, rfl⟩

/-- The end of `compress()` returns, whatever the status of the flushing call is. -/
theorem Represents.flush_returns (h : Represents fs₀ fin fout base l p)
    (hlt : p.written.length < 2 ^ 31) : ∃ status c fs, l.flush api = .ok (status, c, fs) := by
  by_cases hok : (api.coder.call p.state .flush p.pending chunk).status = 0
  · obtain ⟨c, hflush, -⟩ := h.flush hok hlt
    exact ⟨0, c, _, hflush⟩
  · have herr : (api.coder.call p.state .flush p.pending chunk).status ≠ aecOk := hok
    unfold FileLoop.flush
    simp only [h.code .flush]
    rw [if_pos herr]
    exact ⟨_, _, _, rfl⟩

/-- The loop has read the whole file `fin`, and the coder has used all of it. -/
def HasRead (l : FileLoop σ) (fin : String) : Prop :=
  l.impl.dStrm.availIn = 0
    ∧ ∃ pos fail, l.impl.inputStream = .opened fin pos fail ∧ (l.fs.bytesAt fin).drop pos = []

/-- The file is read when the source of the pump is used up. -/
theorem Represents.hasRead (hne : fin ≠ fout) (h : Represents fs₀ fin fout base l p)
    (hpending : p.pending = []) (hunread : p.unread = []) : l.HasRead fin := by
  obtain ⟨pos, fail, hopen, hrest, -⟩ := h.input
  refine ⟨by rw [h.availIn, hpending, List.length_nil], pos, fail, hopen, ?_⟩
  rw [h.files, FileSystem.bytesAt, FileSystem.content_put_of_ne _ _ hne, ← FileSystem.bytesAt,
    hrest, hunread]

/-- **Turns of the pump below the bound are turns of the loop.** -/
theorem Represents.loops (hne : fin ≠ fout) (h : Represents fs₀ fin fout base l p)
    (hsmall : ∀ q, Loops (Pump.step api.coder chunk) p q → q.written.length < 2 ^ 31)
    {q : Pump σ U8 U8} (hloops : Loops (Pump.step api.coder chunk) p q) :
    ∃ l', Loops (FileLoop.step api) l l' ∧ Represents fs₀ fin fout base l' q := by
  -- the reached heads are kept in the relation, because the bound is about them
  obtain ⟨l', hl', hrep, -⟩ := hloops.simulate (fun l p' => Represents fs₀ fin fout base l p'
    ∧ Loops (Pump.step api.coder chunk) p p') (by
      rintro l p' c' ⟨hrep, hreached⟩ hstep
      have hgo := Pump.flags_of_step_inl hstep
      obtain ⟨hok, rfl⟩ := Pump.eq_of_step_inl hstep
      obtain ⟨l', hl', hrep'⟩ := hrep.turn hne hgo hok (hsmall p' hreached)
      exact ⟨l', hl', hrep', hreached.tail hstep⟩) ⟨h, .refl⟩
  exact ⟨l', hl', hrep⟩

/-- **A run of the pump that stays below the bound is a run of the loop.** -/
theorem Represents.exits (hne : fin ≠ fout) (h : Represents fs₀ fin fout base l p)
    (hsmall : ∀ q, Loops (Pump.step api.coder chunk) p q → q.written.length < 2 ^ 31)
    {q : Pump σ U8 U8} (hexit : Exits (Pump.step api.coder chunk) p (0, q)) :
    ∃ l', Exits (FileLoop.step api) l (.ok (aecOk, l')) ∧ Represents fs₀ fin fout base l' q := by
  obtain ⟨last, hloops, hleave⟩ := hexit
  obtain ⟨l', hl', hrep⟩ := h.loops hne hsmall hloops
  obtain ⟨hin, hout⟩ := Pump.flags_of_step_zero hleave
  rw [Pump.eq_of_step_zero hleave]
  exact ⟨l', ⟨l', hl', hrep.leaves (by simp [hin, hout])⟩, hrep⟩

/-- **Where the pump never ends, neither does the loop**, if it stays below the bound. -/
theorem Represents.not_exits (hne : fin ≠ fout) (h : Represents fs₀ fin fout base l p)
    (hsmall : ∀ q, Loops (Pump.step api.coder chunk) p q → q.written.length < 2 ^ 31)
    (hnever : ∀ r, ¬ Exits (Pump.step api.coder chunk) p r)
    (result : Except Abort (Int × FileLoop σ)) : ¬ Exits (FileLoop.step api) l result := by
  refine Library.not_exits (fun l => ∃ q, Loops (Pump.step api.coder chunk) p q
    ∧ Represents fs₀ fin fout base l q) ?_ ⟨p, .refl, h⟩
  rintro l ⟨q, hloops, hrep⟩
  cases hstep : Pump.step api.coder chunk q with
  | inr r => exact absurd ⟨q, hloops, hstep⟩ (hnever r)
  | inl q' =>
    have hgo := Pump.flags_of_step_inl hstep
    obtain ⟨hok, rfl⟩ := Pump.eq_of_step_inl hstep
    obtain ⟨l', hl', hrep'⟩ := hrep.turn hne hgo hok (hsmall q hloops)
    exact ⟨l', hl', _, hloops.tail hstep, hrep'⟩

/-- What a turn of the loop that goes on was: a turn of the pump below the bound. -/
theorem Represents.turn_inv (hne : fin ≠ fout) (h : Represents fs₀ fin fout base l p)
    {l' : FileLoop σ} (hstep : l.step api = .inl l') :
    p.written.length < 2 ^ 31 ∧ Pump.step api.coder chunk p = .inl (p.advance api.coder chunk)
      ∧ Represents fs₀ fin fout base l' (p.advance api.coder chunk) := by
  -- the other three cases of a turn all leave the loop
  by_cases hgo : (p.inputAvail || p.outputAvail) = true
  · by_cases hok : (p.answer api.coder chunk).status = 0
    · by_cases hlt : p.written.length < 2 ^ 31
      · obtain ⟨l'', hl'', hrep⟩ := h.turn hne hgo hok hlt
        rw [hstep] at hl''
        cases hl''
        exact ⟨hlt, by rw [Pump.step, if_pos hgo, if_pos hok], hrep⟩
      · rw [h.overflow hne hgo hok (by omega)] at hstep
        cases hstep
    · obtain ⟨l'', hl''⟩ := h.failed hne hgo hok
      rw [hl''] at hstep
      cases hstep
  · rw [h.leaves hgo] at hstep
    cases hstep

/-- What leaving the loop was: a call that failed, or both flags down. -/
theorem Represents.leaves_inv (hne : fin ≠ fout) (h : Represents fs₀ fin fout base l p)
    {status : Int} {l' : FileLoop σ} (hstep : l.step api = .inr (.ok (status, l'))) :
    ((p.answer api.coder chunk).status ≠ 0 ∧ status = (p.answer api.coder chunk).status)
      ∨ (status = aecOk ∧ Pump.step api.coder chunk p = .inr (0, p) ∧ p.outputAvail = false
        ∧ l' = l) := by
  by_cases hgo : (p.inputAvail || p.outputAvail) = true
  · by_cases hok : (p.answer api.coder chunk).status = 0
    · by_cases hlt : p.written.length < 2 ^ 31
      · obtain ⟨l'', hl'', -⟩ := h.turn hne hgo hok hlt
        rw [hl''] at hstep
        cases hstep
      · rw [h.overflow hne hgo hok (by omega)] at hstep
        cases hstep
    · obtain ⟨l'', hl''⟩ := h.failed hne hgo hok
      rw [hl''] at hstep
      cases hstep
      exact Or.inl ⟨hok, rfl⟩
  · rw [h.leaves hgo] at hstep
    cases hstep
    rw [Bool.or_eq_true, not_or, Bool.not_eq_true, Bool.not_eq_true] at hgo
    exact Or.inr ⟨rfl, by rw [Pump.step, hgo.1, hgo.2]; rfl, hgo.2, rfl⟩

/-- **Heads of the loop are heads of the pump.** A turn that produced something raises
`output_avail`, and the next one checks the bound. -/
theorem Represents.loops_inv (hne : fin ≠ fout) {s₀ : σ} {input : List U8}
    (h : Represents fs₀ fin fout base l (Pump.start s₀ input)) {l' : FileLoop σ}
    (hloops : Loops (FileLoop.step api) l l') :
    ∃ q, Loops (Pump.step api.coder chunk) (Pump.start s₀ input) q
      ∧ Represents fs₀ fin fout base l' q
      ∧ (q.outputAvail = false → q.written.length < 2 ^ 31) := by
  refine hloops.simulate (fun p l => Represents fs₀ fin fout base l p
    ∧ (p.outputAvail = false → p.written.length < 2 ^ 31)) ?_ ⟨h, nofun⟩
  rintro p l l' ⟨hrep, -⟩ hstep
  obtain ⟨hlt, hturn, hnext⟩ := hrep.turn_inv hne hstep
  refine ⟨_, hturn, hnext, fun hquiet => ?_⟩
  have hnil : (p.answer api.coder chunk).produced = [] := by simpa [Pump.advance] using hquiet
  simpa [Pump.advance, hnil] using hlt

/-- **A run of the loop that returns is a run of the pump**: to a call that failed, or, below the
bound, to both flags down. -/
theorem Represents.pump_of_exits (hne : fin ≠ fout) {s₀ : σ} {input : List U8}
    (h : Represents fs₀ fin fout base l (Pump.start s₀ input)) {status : Int} {l' : FileLoop σ}
    (hexit : Exits (FileLoop.step api) l (.ok (status, l'))) :
    ∃ q, Loops (Pump.step api.coder chunk) (Pump.start s₀ input) q
      ∧ (((q.answer api.coder chunk).status ≠ 0 ∧ status = (q.answer api.coder chunk).status)
        ∨ (status = aecOk ∧ Exits (Pump.step api.coder chunk) (Pump.start s₀ input) (0, q)
          ∧ q.written.length < 2 ^ 31 ∧ Represents fs₀ fin fout base l' q)) := by
  obtain ⟨last, hloops, hlast⟩ := hexit
  obtain ⟨q, hq, hrep, hsmall⟩ := h.loops_inv hne hloops
  refine ⟨q, hq, ?_⟩
  rcases hrep.leaves_inv hne hlast with hfail | ⟨hzero, hleave, hquiet, rfl⟩
  · exact Or.inl hfail
  · exact Or.inr ⟨hzero, ⟨q, hq, hleave⟩, hsmall hquiet, hrep⟩

/-- A run of the loop that leaves it with `AEC_OK` is a run of the pump below the bound. -/
theorem Represents.pump_exits_ok (hne : fin ≠ fout) {s₀ : σ} {input : List U8}
    (h : Represents fs₀ fin fout base l (Pump.start s₀ input)) {l' : FileLoop σ}
    (hexit : Exits (FileLoop.step api) l (.ok (aecOk, l'))) :
    ∃ q, Exits (Pump.step api.coder chunk) (Pump.start s₀ input) (0, q)
      ∧ q.written.length < 2 ^ 31 ∧ Represents fs₀ fin fout base l' q := by
  obtain ⟨q, -, ⟨hfail, hzero⟩ | ⟨-, hq⟩⟩ := h.pump_of_exits hne hexit
  · exact absurd hzero.symm hfail
  · exact ⟨q, hq⟩

/-- **A run of the loop that returns is a run of the pump below the bound**, when the coder accepts
the input. -/
theorem Represents.pump_exits (hne : fin ≠ fout) {s₀ : σ} {input : List U8}
    (h : Represents fs₀ fin fout base l (Pump.start s₀ input))
    (accepts : api.coder.Accepts chunk s₀ input) {status : Int} {l' : FileLoop σ}
    (hexit : Exits (FileLoop.step api) l (.ok (status, l'))) :
    status = aecOk ∧ ∃ q, Exits (Pump.step api.coder chunk) (Pump.start s₀ input) (0, q)
      ∧ q.written.length < 2 ^ 31 ∧ Represents fs₀ fin fout base l' q := by
  obtain ⟨q, hq, ⟨hfail, -⟩ | ⟨hzero, hrun⟩⟩ := h.pump_of_exits hne hexit
  · obtain ⟨used, hsound⟩ := Pump.sound_of_loops hq
    exact absurd (Pump.answer_status accepts hsound) hfail
  · exact ⟨hzero, q, hrun⟩

/-- What fuel finds of the loop, from its start on, is a run of the pump below the bound. -/
theorem Opened.pump_exits {c : IqzipImpl σ} {fs : FileSystem} {pos : Nat} {s₀ : σ}
    (hopen : Opened c fs fin fout pos base s₀) (hne : fin ≠ fout)
    (accepts : api.coder.Accepts chunk s₀ ((fs.bytesAt fin).drop pos)) {cell : Nat → U8}
    {fuel : Nat} {result : Int × FileLoop σ}
    (h : iterate (FileLoop.step api) fuel (start c fs { size := chunk, cell := cell })
      = some (.ok result)) :
    ∃ q, Exits (Pump.step api.coder chunk) (Pump.start s₀ ((fs.bytesAt fin).drop pos)) (0, q)
      ∧ q.written.length < 2 ^ 31 := by
  obtain ⟨-, q, hexit, hsmall, -⟩ :=
    (hopen.represents cell).pump_exits hne accepts (exits_of_iterate h)
  exact ⟨q, hexit, hsmall⟩

/-- **Crossing the bound.** A run of the pump that writes `2^31` bytes or more takes the loop to a
head past the bound, with another turn to make. -/
theorem Represents.crosses (hne : fin ≠ fout) (h : Represents fs₀ fin fout base l p)
    (hlt : p.written.length < 2 ^ 31) {q : Pump σ U8 U8}
    (hloops : Loops (Pump.step api.coder chunk) p q) (hge : 2 ^ 31 ≤ q.written.length) :
    ∃ l' p', Loops (FileLoop.step api) l l' ∧ Represents fs₀ fin fout base l' p'
      ∧ Loops (Pump.step api.coder chunk) p p' ∧ 2 ^ 31 ≤ p'.written.length
      ∧ p'.outputAvail = true := by
  -- from the front: the first turn that takes the sink over the bound is the one wanted
  induction hloops using Relation.ReflTransGen.head_induction_on generalizing l with
  | refl => omega
  | @head p p' hstep _ ih =>
    have hgo := Pump.flags_of_step_inl hstep
    obtain ⟨hok, rfl⟩ := Pump.eq_of_step_inl hstep
    obtain ⟨l', hl', hrep⟩ := h.turn hne hgo hok hlt
    by_cases hsmall : (p.advance api.coder chunk).written.length < 2 ^ 31
    · obtain ⟨l'', p'', hl'', hrep'', hp'', hpast⟩ := ih hrep hsmall
      exact ⟨l'', p'', .head hl' hl'', hrep'', .head hstep hp'', hpast⟩
    · -- a turn that crosses the bound produced something, so the flag is up
      refine ⟨l', _, .single hl', hrep, .single hstep, by omega, ?_⟩
      have hmade : (p.answer api.coder chunk).produced ≠ [] := by
        intro hnil
        simp only [Pump.advance, hnil, List.append_nil] at hsmall
        exact hsmall hlt
      simpa [Pump.advance] using hmade

end Refinement

end FileLoop

end IQzip
