import IQzip.Impl
import IQzip.Library.Rechunk

/-! # The streaming functions

`stream_compress` and `stream_decompress` are one text but for the coder they call, and so are
`stream_compress_fin` and `stream_decompress_fin` but for the flush mode. Buffers of any size are
collected into blocks of `STREAM_CHUNK` bytes in `d_tmp_stream`; a full block goes to the coder, and
what does not fill a block stays there.

`Represents.streamCode` shows that a call is a `Rechunker.push`: whatever the sizes, the copies stay
inside their buffers and the arithmetic on `remainder` is exact. -/

namespace IQzip

open Library

variable {σ : Type}

/-- The members that `compressor_impl` and `decompressor_impl` add to the base class. -/
structure CodecImpl (σ : Type) extends IqzipImpl σ where
  dTmpStream : Buffer
  dStreamAvailIn : Nat
  dOut : Buffer
  dTotalOut : Nat

/-- What the memory of a new object holds where its constructor writes nothing. -/
structure ObjectStorage (σ : Type) where
  header : HeaderStorage
  strm : AecStream σ
  tmpStream : Nat → U8
  out : Nat → U8

/-- A buffer the caller passes with its length; no object is larger than `PTRDIFF_MAX`. -/
structure InBuf where
  bytes : List U8
  bounded : bytes.length < 2 ^ 63

namespace CodecImpl

/-! ## Coding -/

/-- The bytes the counters say the last call produced, appended to the output file. -/
def writeProduced (c : CodecImpl σ) (fs : FileSystem) : Except Abort (CodecImpl σ × FileSystem) :=
  let n := sizeSub c.dStrm.totalOut c.dTotalOut
  if 0 < n then
    match c.outputStream.write fs c.dOut n with
    | .error e => .error e
    | .ok (output, fs) => .ok ({ c with outputStream := output }, fs)
  else .ok (c, fs)

/-- The write changes the object in its output stream only. -/
theorem writeProduced_eq {c c' : CodecImpl σ} {fs fs' : FileSystem}
    (h : c.writeProduced fs = .ok (c', fs')) :
    c' = { c with outputStream := c'.outputStream } := by
  unfold writeProduced at h
  dsimp only at h
  split_ifs at h
  · split at h
    · cases h
    · cases h
      rfl
  · cases h
    rfl

/-- Point the stream at `d_out` and at the first `d_stream_avail_in` bytes of `d_tmp_stream`. -/
def readyStream (c : CodecImpl σ) : AecStream σ :=
  { c.dStrm with
    availIn := c.dStreamAvailIn
    nextOut := 0
    nextIn := c.dTmpStream.load 0 c.dTmpStream.size }

/-- The coder call on `d_tmp_stream` and `d_out`. -/
def codeStream (api : Aec σ) (mode : FlushMode) (c : CodecImpl σ) :
    Except Abort (Int × CodecImpl σ) :=
  match api.code mode c.readyStream c.dOut with
  | .error e => .error e
  | .ok (status, strm, out) => .ok (status, { c with dStrm := strm, dOut := out })

/-- After a write: all of `d_out` is free again, and its bytes are counted. -/
def settle (c : CodecImpl σ) : CodecImpl σ :=
  if 0 < sizeSub c.dStrm.totalOut c.dTotalOut then
    { c with dStrm := { c.dStrm with availOut := chunk }, dTotalOut := c.dStrm.totalOut }
  else c

/-- The loop body up to the arithmetic on the input: fill the block, code it, write. -/
def streamBlock (api : Aec σ) (c : CodecImpl σ) (fs : FileSystem) (inbuf : List U8) :
    Outcome (CodecImpl σ) :=
  match c.dTmpStream.memcpy c.dStreamAvailIn inbuf (sizeSub streamChunk c.dStreamAvailIn) with
  | .error e => .error e
  | .ok tmp =>
    -- set before the call, so a failing call leaves a full block carried
    match codeStream api .noFlush { c with dTmpStream := tmp, dStreamAvailIn := streamChunk } with
    | .error e => .error e
    | .ok (status, c) =>
      if status ≠ aecOk then .ok (status, c, fs)
      else
        match c.writeProduced fs with
        | .error e => .error e
        | .ok (c, fs) => .ok (aecOk, c.settle, fs)

/-- After the loop: leftover bytes are copied to the block. -/
def streamRest (c : CodecImpl σ) (fs : FileSystem) (inbuf : List U8) (nbytes : Nat) :
    Outcome (CodecImpl σ) :=
  if nbytes ≠ 0 then
    match c.dTmpStream.memcpy c.dStreamAvailIn inbuf nbytes with
    | .error e => .error e
    -- assigned, not added: `d_stream_avail_in` is zero when the loop has run
    | .ok tmp => .ok (aecOk, { c with dTmpStream := tmp, dStreamAvailIn := nbytes }, fs)
  else .ok (aecOk, c, fs)

/-- The next value of `remainder` is smaller, whatever `nbytes` is. -/
theorem remainder_lt {nbytes : Nat} {remainder : Int} (h : 0 ≤ remainder) :
    (longOfSize (sizeSub (sizeAdd 0 (sizeSub nbytes (sizeSub nbytes (sizeOfInt remainder))))
      streamChunk) + 1).toNat < (remainder + 1).toNat := by
  have hchunk := streamChunk_eq
  -- the two subtractions cancel, so the new count is the old `remainder`
  have hbytes : sizeSub nbytes (sizeSub nbytes (sizeOfInt remainder)) = sizeOfInt remainder := by
    unfold sizeSub sizeOfInt sizeModulus
    omega
  rw [hbytes]
  unfold longOfSize sizeSub sizeAdd sizeOfInt sizeModulus
  rw [Int.bmod_def]
  omega

/-- The loop `while (remainder >= 0)`, and what follows it. -/
def streamLoop (api : Aec σ) (c : CodecImpl σ) (fs : FileSystem) (inbuf : List U8) (nbytes : Nat)
    (remainder : Int) : Outcome (CodecImpl σ) :=
  if 0 ≤ remainder then
    match c.streamBlock api fs inbuf with
    | .error e => .error e
    | .ok (status, c, fs) =>
      if status ≠ aecOk then .ok (status, c, fs)
      else
        -- `nbytes - remainder` bytes of the buffer went into the block
        let inbuf := inbuf.drop (sizeSub nbytes (sizeOfInt remainder))
        let nbytes := sizeSub nbytes (sizeSub nbytes (sizeOfInt remainder))
        -- whatever the coder left unread is forgotten with it
        let c := { c with dStreamAvailIn := 0, dStrm := { c.dStrm with availIn := 0 } }
        streamLoop api c fs inbuf nbytes
          (longOfSize (sizeSub (sizeAdd c.dStreamAvailIn nbytes) streamChunk))
  else c.streamRest fs inbuf nbytes
termination_by (remainder + 1).toNat
decreasing_by exact remainder_lt ‹_›

/-- `stream_compress` and `stream_decompress`. -/
def streamCode (api : Aec σ) (c : CodecImpl σ) (fs : FileSystem) (inbuf : InBuf) :
    Outcome (CodecImpl σ) :=
  let nbytes := inbuf.bytes.length
  if sizeAdd c.dStreamAvailIn nbytes < streamChunk then
    -- no block is full yet: only collect
    match c.dTmpStream.memcpy c.dStreamAvailIn inbuf.bytes nbytes with
    | .error e => .error e
    | .ok tmp =>
      let avail := sizeAdd c.dStreamAvailIn nbytes
      .ok (aecOk, { c with
        dTmpStream := tmp
        dStreamAvailIn := avail
        dStrm := { c.dStrm with availIn := avail } }, fs)
  else
    c.streamLoop api fs inbuf.bytes nbytes
      (longOfSize (sizeSub (sizeAdd c.dStreamAvailIn nbytes) streamChunk))

/-- The function on each buffer in order, whatever it returns. -/
def streamCodeAll (api : Aec σ) (c : CodecImpl σ) (fs : FileSystem) :
    List InBuf → Except Abort (CodecImpl σ × FileSystem)
  | [] => .ok (c, fs)
  | inbuf :: bufs =>
    match c.streamCode api fs inbuf with
    | .error e => .error e
    | .ok (_, c, fs) => streamCodeAll api c fs bufs

/-- `stream_compress_fin` and `stream_decompress_fin`: one last call on what is left, then the same
end as for files. -/
def streamFin (api : Aec σ) (mode : FlushMode) (c : CodecImpl σ) (fs : FileSystem) :
    Outcome (CodecImpl σ) :=
  match c.codeStream api mode with
  | .error e => .error e
  | .ok (status, c) =>
    if status ≠ aecOk then .ok (-1, c, fs)
    else
      match c.writeProduced fs with
      | .error e => .error e
      | .ok (c, fs) =>
        match c.toIqzipImpl.fin api fs with
        | .error e => .error e
        | .ok (status, base, fs) => .ok (status, { c with toIqzipImpl := base }, fs)

/-! ## Refinement of the rechunker -/

/-- The object with the output file `fout` stands for a rechunker: `fs₀` are the files before the
session, with `base` in the output file. -/
structure Represents (fs₀ : FileSystem) (fout : String) (base : List U8) (c : CodecImpl σ)
    (fs : FileSystem) (r : Rechunker σ U8 U8) : Prop where
  state : c.dStrm.state = some r.state
  carry : c.dTmpStream.load 0 c.dStreamAvailIn = r.carry
  availIn_le : c.dStreamAvailIn ≤ streamChunk
  tmpSize : streamChunk ≤ c.dTmpStream.size
  output : c.outputStream = .opened fout false
  files : fs = fs₀.put fout (base ++ r.written)
  availOut : c.dStrm.availOut = chunk
  outSize : c.dOut.size = chunk
  totals : c.dStrm.totalOut = c.dTotalOut
  totalOut_lt : c.dTotalOut < sizeModulus

/-- A session on an object that has counted nothing starts as a rechunker that carries what the
object has buffered. -/
theorem represents_resume {c : CodecImpl σ} {cfg : Config} {s₀ : σ} {fout : String}
    (fs : FileSystem) (base : List U8) (hstrm : c.dStrm = initStream cfg (some s₀))
    (hout : c.outputStream = .opened fout false) (havail : c.dStreamAvailIn ≤ streamChunk)
    (htotal : c.dTotalOut = 0) (htmp : streamChunk ≤ c.dTmpStream.size)
    (hsize : c.dOut.size = chunk) :
    Represents (fs.put fout base) fout base c (fs.put fout base)
      { state := s₀, carry := c.dTmpStream.load 0 c.dStreamAvailIn, written := [] } where
  state := by rw [hstrm]; rfl
  carry := rfl
  availIn_le := havail
  tmpSize := htmp
  output := hout
  files := by rw [FileSystem.put_put, List.append_nil]
  availOut := by rw [hstrm]; rfl
  outSize := hsize
  totals := by rw [hstrm, htotal]; rfl
  totalOut_lt := by rw [htotal]; decide

/-- With nothing buffered either, it carries nothing. -/
theorem represents_start {c : CodecImpl σ} {cfg : Config} {s₀ : σ} {fout : String}
    (fs : FileSystem) (base : List U8) (hstrm : c.dStrm = initStream cfg (some s₀))
    (hout : c.outputStream = .opened fout false) (havail : c.dStreamAvailIn = 0)
    (htotal : c.dTotalOut = 0) (htmp : streamChunk ≤ c.dTmpStream.size)
    (hsize : c.dOut.size = chunk) :
    Represents (fs.put fout base) fout base c (fs.put fout base) (Rechunker.start s₀) := by
  have h := represents_resume fs base hstrm hout (by rw [havail]; exact Nat.zero_le _) htotal htmp
    hsize
  rwa [havail, Buffer.load_zero] at h

section Refinement

variable {api : Aec σ} {fs₀ fs : FileSystem} {fout : String} {base : List U8} {c : CodecImpl σ}
  {r : Rechunker σ U8 U8} {inbuf : List U8}

theorem Represents.length_carry (h : Represents fs₀ fout base c fs r) :
    r.carry.length = c.dStreamAvailIn := by
  rw [← h.carry, Buffer.length_load]

/-- Bytes copied behind the carried ones are carried too. -/
theorem Represents.memcpy (h : Represents fs₀ fout base c fs r) (n : Nat)
    (hroom : c.dStreamAvailIn + n ≤ streamChunk) (hn : n ≤ inbuf.length) :
    ∃ tmp, c.dTmpStream.memcpy c.dStreamAvailIn inbuf n = .ok tmp
      ∧ tmp.size = c.dTmpStream.size
      ∧ tmp.load 0 (c.dStreamAvailIn + n) = r.carry ++ inbuf.take n := by
  have htmp := h.tmpSize
  refine ⟨_, Buffer.memcpy_eq_ok (by omega) hn, rfl, ?_⟩
  have hload := Buffer.load_splice c.dTmpStream c.dStreamAvailIn (inbuf.take n)
  rw [List.length_take, Nat.min_eq_left hn, h.carry] at hload
  exact hload

/-- The object after a call, with its stream and buffer put back. -/
def coded (c : CodecImpl σ) (a : Answer σ U8) : CodecImpl σ :=
  { c with dStrm := c.readyStream.after a, dOut := c.dOut.splice 0 a.produced }

/-- The coder call on what is carried. -/
theorem Represents.codeStream (h : Represents fs₀ fout base c fs r) (mode : FlushMode) :
    c.codeStream api mode
      = .ok ((api.coder.call r.state mode r.carry chunk).status,
          c.coded (api.coder.call r.state mode r.carry chunk)) := by
  have hle : c.dStreamAvailIn ≤ c.dTmpStream.size := h.availIn_le.trans h.tmpSize
  have hoffered : c.readyStream.offered = r.carry := by
    rw [AecStream.offered, readyStream, Buffer.take_load _ _ hle, h.carry]
  have hin : c.readyStream.availIn ≤ c.readyStream.nextIn.length := by
    rw [readyStream, Buffer.length_load]
    exact hle
  have hout : c.readyStream.nextOut + c.readyStream.availOut ≤ c.dOut.size := by
    rw [readyStream, h.availOut, h.outSize, Nat.zero_add]
  have hcode : api.code mode c.readyStream c.dOut = _ :=
    Aec.code_eq_ok mode (show c.readyStream.state = some r.state from h.state) hin hout
  rw [hoffered, show c.readyStream.availOut = chunk from h.availOut] at hcode
  rw [CodecImpl.codeStream, hcode]
  rfl

/-- What the counters say was produced is what was produced. -/
theorem Represents.produced (h : Represents fs₀ fout base c fs r) {k : Nat} (hk : k ≤ chunk) :
    sizeSub (sizeAdd c.dStrm.totalOut k) c.dTotalOut = k := by
  have := h.totalOut_lt
  have := chunk_eq
  rw [h.totals]
  unfold sizeSub sizeAdd
  unfold sizeModulus at *
  omega

/-- Exactly what a call produced is written. -/
theorem Represents.writeProduced (h : Represents fs₀ fout base c fs r) {a : Answer σ U8}
    (hcount : a.counted = a.produced.length) (ha : a.produced.length ≤ chunk) :
    (c.coded a).writeProduced fs
      = .ok (c.coded a, fs₀.put fout (base ++ (r.written ++ a.produced))) := by
  have hchunk := chunk_eq
  have hn : sizeSub (c.coded a).dStrm.totalOut (c.coded a).dTotalOut = a.produced.length := by
    rw [coded, AecStream.after, hcount]
    exact h.produced ha
  have hroom : a.produced.length ≤ (c.coded a).dOut.size := by
    rw [coded, Buffer.size_splice, h.outSize]
    exact ha
  have hwrite : (c.coded a).outputStream.write fs (c.coded a).dOut a.produced.length
      = .ok ((c.coded a).outputStream, fs₀.put fout (base ++ (r.written ++ a.produced))) := by
    rw [show (c.coded a).outputStream = .opened fout false from h.output,
      OutputStream.write_of_le _ _ (by omega) hroom, coded, Buffer.load_splice_zero, h.files,
      FileSystem.bytesAt_put_self, FileSystem.put_put, List.append_assoc]
  unfold CodecImpl.writeProduced
  simp only [hn]
  by_cases hnil : a.produced = []
  · rw [if_neg (by rw [hnil]; exact Nat.lt_irrefl 0), hnil, List.append_nil, h.files]
  · rw [if_pos (List.length_pos_iff.mpr hnil)]
    simp only [hwrite]

/-- After the write the object stands for the coder's new state, with nothing carried. -/
theorem Represents.settle (h : Represents fs₀ fout base c fs r) {a : Answer σ U8}
    (hcount : a.counted = a.produced.length) (ha : a.produced.length ≤ chunk) :
    Represents fs₀ fout base
      { (c.coded a).settle with
        dStreamAvailIn := 0
        dStrm := { (c.coded a).settle.dStrm with availIn := 0 } }
      (fs₀.put fout (base ++ (r.written ++ a.produced)))
      { state := a.next, carry := [], written := r.written ++ a.produced } := by
  have hn : sizeSub (c.coded a).dStrm.totalOut (c.coded a).dTotalOut = a.produced.length := by
    rw [coded, AecStream.after, hcount]
    exact h.produced ha
  have hlt : (c.coded a).dStrm.totalOut < sizeModulus := Nat.mod_lt _ (by decide)
  unfold CodecImpl.settle
  rw [hn]
  -- the counters are only taken over when something was produced
  by_cases hnil : a.produced = []
  · rw [if_neg (by rw [hnil]; exact Nat.lt_irrefl 0)]
    have hkeep : sizeAdd c.dStrm.totalOut a.counted = c.dTotalOut := by
      rw [hcount, hnil, h.totals]
      exact Nat.mod_eq_of_lt h.totalOut_lt
    exact
      { state := rfl
        carry := rfl
        availIn_le := Nat.zero_le _
        tmpSize := h.tmpSize
        output := h.output
        files := rfl
        availOut := by
          rw [coded, AecStream.after, hnil]
          exact h.availOut
        outSize := h.outSize
        totals := hkeep
        totalOut_lt := h.totalOut_lt }
  · rw [if_pos (List.length_pos_iff.mpr hnil)]
    exact
      { state := rfl
        carry := rfl
        availIn_le := Nat.zero_le _
        tmpSize := h.tmpSize
        output := h.output
        files := rfl
        availOut := rfl
        outSize := h.outSize
        totals := rfl
        totalOut_lt := hlt }

/-- A full block is copied: the object then carries all of it. -/
theorem Represents.fill (h : Represents fs₀ fout base c fs r)
    (hlen : streamChunk ≤ (r.carry ++ inbuf).length) :
    ∃ tmp, c.dTmpStream.memcpy c.dStreamAvailIn inbuf (sizeSub streamChunk c.dStreamAvailIn)
        = .ok tmp
      ∧ Represents fs₀ fout base
        { c with dTmpStream := tmp, dStreamAvailIn := streamChunk } fs
        { r with carry := (r.carry ++ inbuf).take streamChunk } := by
  have hle := h.availIn_le
  have hcarry := h.length_carry
  have hsub : sizeSub streamChunk c.dStreamAvailIn = streamChunk - c.dStreamAvailIn :=
    sizeSub_of_le hle (by decide)
  rw [List.length_append, hcarry] at hlen
  have hroom : streamChunk - c.dStreamAvailIn ≤ inbuf.length := by omega
  obtain ⟨tmp, hcopy, hsize, hload⟩ := h.memcpy (streamChunk - c.dStreamAvailIn) (by omega) hroom
  refine ⟨tmp, by rw [hsub, hcopy], ?_⟩
  have hblock : (r.carry ++ inbuf).take streamChunk
      = r.carry ++ inbuf.take (streamChunk - c.dStreamAvailIn) := by
    rw [List.take_append, List.take_of_length_le (by omega), hcarry]
  rw [Nat.add_sub_of_le hle] at hload
  exact
    { h with
      carry := by rw [hblock]; exact hload
      availIn_le := Nat.le_refl streamChunk
      tmpSize := by
        rw [show ({ c with dTmpStream := tmp, dStreamAvailIn := streamChunk } :
          CodecImpl σ).dTmpStream.size = c.dTmpStream.size from hsize]
        exact h.tmpSize }

/-- A failing call without output leaves everything but the coder's state. -/
theorem Represents.refused (h : Represents fs₀ fout base c fs r) {a : Answer σ U8}
    (hnil : a.produced = []) (hcount : a.counted = 0) :
    Represents fs₀ fout base (c.coded a) fs { r with state := a.next } where
  state := rfl
  carry := h.carry
  availIn_le := h.availIn_le
  tmpSize := h.tmpSize
  output := h.output
  files := h.files
  availOut := by
    rw [coded, AecStream.after, hnil]
    exact h.availOut
  outSize := h.outSize
  totals := by
    rw [coded, AecStream.after, hcount]
    have hkeep : sizeAdd c.dStrm.totalOut 0 = c.dTotalOut := by
      rw [h.totals]
      exact Nat.mod_eq_of_lt h.totalOut_lt
    exact hkeep
  totalOut_lt := h.totalOut_lt

/-- **A block whose call returns zero is coded and written.** -/
theorem Represents.streamBlock (h : Represents fs₀ fout base c fs r)
    (hlen : streamChunk ≤ (r.carry ++ inbuf).length)
    (hok : (api.coder.call r.state .noFlush ((r.carry ++ inbuf).take streamChunk) chunk).status
      = 0) :
    ∃ c' fs', c.streamBlock api fs inbuf = .ok (aecOk, c', fs')
      ∧ Represents fs₀ fout base
        { c' with dStreamAvailIn := 0, dStrm := { c'.dStrm with availIn := 0 } } fs'
        { state :=
            (api.coder.call r.state .noFlush ((r.carry ++ inbuf).take streamChunk) chunk).next
          carry := []
          written := r.written
            ++ (api.coder.call r.state .noFlush ((r.carry ++ inbuf).take streamChunk)
              chunk).produced } := by
  obtain ⟨tmp, hcopy, hfull⟩ := h.fill hlen
  have hmade := api.coder.produced_le r.state .noFlush ((r.carry ++ inbuf).take streamChunk) chunk
  have hcount := api.coder.counted_eq _ _ _ _ hok
  refine ⟨_, _, ?_, hfull.settle hcount hmade⟩
  unfold CodecImpl.streamBlock
  simp only [hcopy, hfull.codeStream]
  rw [if_neg (show ¬ _ ≠ aecOk from not_not_intro hok)]
  simp only [hfull.writeProduced hcount hmade]

/-- A block whose call fails stays carried, and if the call was silent that is all. -/
theorem Represents.streamBlock_of_ne (h : Represents fs₀ fout base c fs r)
    (hlen : streamChunk ≤ (r.carry ++ inbuf).length)
    (herr : (api.coder.call r.state .noFlush ((r.carry ++ inbuf).take streamChunk) chunk).status
      ≠ 0) :
    ∃ c', c.streamBlock api fs inbuf
        = .ok ((api.coder.call r.state .noFlush ((r.carry ++ inbuf).take streamChunk)
            chunk).status, c', fs)
      ∧ (api.FailsSilently → Represents fs₀ fout base c' fs
        { r with
          state :=
            (api.coder.call r.state .noFlush ((r.carry ++ inbuf).take streamChunk) chunk).next
          carry := (r.carry ++ inbuf).take streamChunk }) := by
  obtain ⟨tmp, hcopy, hfull⟩ := h.fill hlen
  refine ⟨_, ?_, fun silent => hfull.refused (silent herr).1 (silent herr).2⟩
  unfold CodecImpl.streamBlock
  simp only [hcopy, hfull.codeStream]
  rw [if_pos (show _ ≠ aecOk from herr)]

/-- Leftover bytes are carried. -/
theorem Represents.streamRest (h : Represents fs₀ fout base c fs r) (hempty : c.dStreamAvailIn = 0)
    (hlt : inbuf.length < streamChunk) :
    ∃ c', c.streamRest fs inbuf inbuf.length = .ok (aecOk, c', fs)
      ∧ Represents fs₀ fout base c' fs { r with carry := r.carry ++ inbuf } := by
  have hcarry : r.carry = [] := by
    rw [← List.length_eq_zero_iff, h.length_carry, hempty]
  unfold CodecImpl.streamRest
  by_cases hnil : inbuf = []
  · rw [if_neg (by rw [hnil]; exact not_not_intro rfl), hnil, List.append_nil]
    exact ⟨c, rfl, h⟩
  · obtain ⟨tmp, hcopy, hsize, hload⟩ := h.memcpy inbuf.length (by omega) (Nat.le_refl _)
    rw [if_pos (by rwa [ne_eq, List.length_eq_zero_iff]), hcopy]
    refine ⟨_, rfl, ?_⟩
    rw [hempty, Nat.zero_add, List.take_length] at hload
    exact
      { h with
        carry := hload
        availIn_le := Nat.le_of_lt hlt
        tmpSize := h.tmpSize.trans (Nat.le_of_eq hsize.symm) }

/-- The bytes carried and passed are counted without a wrap. -/
theorem carried_add {availIn nbytes : Nat} (ha : availIn ≤ streamChunk) (hn : nbytes < 2 ^ 63) :
    sizeAdd availIn nbytes = availIn + nbytes := by
  have := streamChunk_eq
  unfold sizeAdd sizeModulus
  omega

/-- Below `2^63` the arithmetic on `remainder` is exact. -/
theorem remainder_eq {availIn nbytes : Nat} (ha : availIn ≤ streamChunk) (hn : nbytes < 2 ^ 63) :
    longOfSize (sizeSub (sizeAdd availIn nbytes) streamChunk)
      = ((availIn + nbytes : Nat) : Int) - (streamChunk : Int) := by
  have := streamChunk_eq
  unfold longOfSize sizeSub sizeAdd sizeModulus
  rw [Int.bmod_def]
  omega

/-- In a turn the unsigned differences are the true ones: what is left over, what is taken from the
buffer and how far the buffer's length goes down. -/
theorem turn_differences {availIn nbytes : Nat} (ha : availIn ≤ streamChunk)
    (hfull : streamChunk ≤ availIn + nbytes) (hn : nbytes < 2 ^ 63) :
    sizeOfInt (((availIn + nbytes : Nat) : Int) - (streamChunk : Int))
        = availIn + nbytes - streamChunk
      ∧ sizeSub nbytes (availIn + nbytes - streamChunk) = streamChunk - availIn
      ∧ sizeSub nbytes (streamChunk - availIn) = availIn + nbytes - streamChunk := by
  have := streamChunk_eq
  unfold sizeOfInt sizeSub sizeModulus
  refine ⟨?_, ?_, ?_⟩ <;> omega

/-- **The loop is a push**: it codes the blocks of the carried bytes and `inbuf` and carries the
rest. When a call fails, only a silent one leaves an object that stands for the rechunker. -/
theorem Represents.streamLoop (h : Represents fs₀ fout base c fs r)
    (hblock : streamChunk ≤ (r.carry ++ inbuf).length ∨ c.dStreamAvailIn = 0)
    (hbound : inbuf.length < 2 ^ 63) :
    ∃ c' fs', c.streamLoop api fs inbuf inbuf.length
        (((c.dStreamAvailIn + inbuf.length : Nat) : Int) - (streamChunk : Int))
        = .ok ((r.push api.coder streamChunk chunk inbuf).1, c', fs')
      ∧ ((r.push api.coder streamChunk chunk inbuf).1 = 0 ∨ api.FailsSilently →
        Represents fs₀ fout base c' fs' (r.push api.coder streamChunk chunk inbuf).2) := by
  -- on the number of bytes carried and passed: every turn takes a block off
  induction hk : (r.carry ++ inbuf).length using Nat.strongRecOn generalizing inbuf c fs r with
  | ind k ih =>
    have hchunk := streamChunk_eq
    have hle := h.availIn_le
    have hsum : (r.carry ++ inbuf).length = c.dStreamAvailIn + inbuf.length := by
      rw [List.length_append, h.length_carry]
    by_cases hfull : streamChunk ≤ (r.carry ++ inbuf).length
    · rw [CodecImpl.streamLoop, if_pos (by omega)]
      obtain ⟨hrem, htaken, hleft⟩ := turn_differences hle (by omega) hbound
      rw [show c.dStreamAvailIn + inbuf.length - streamChunk
          = (inbuf.drop (streamChunk - c.dStreamAvailIn)).length by
        rw [List.length_drop]
        omega] at hleft
      by_cases hok : (api.coder.call r.state .noFlush ((r.carry ++ inbuf).take streamChunk)
          chunk).status = 0
      · obtain ⟨c', fs', hstep, hnext⟩ := h.streamBlock hfull hok
        have hdrop : (r.carry ++ inbuf).drop streamChunk
            = inbuf.drop (streamChunk - c.dStreamAvailIn) := by
          rw [List.drop_append, h.length_carry, List.drop_eq_nil_of_le (by
            rw [h.length_carry]; exact hle), List.nil_append]
        have hpush := Rechunker.push_of_le (by decide) hfull hok
        rw [hdrop] at hpush
        rw [hpush]
        simp only [hstep, hrem, htaken, hleft]
        rw [if_neg (not_not_intro rfl)]
        have hshort : (inbuf.drop (streamChunk - c.dStreamAvailIn)).length < 2 ^ 63 := by
          rw [List.length_drop]
          omega
        rw [remainder_eq (Nat.zero_le _) hshort]
        refine ih _ ?_ hnext (Or.inr rfl) hshort rfl
        rw [List.nil_append, List.length_drop]
        omega
      · -- a failed call ends the loop with the full block carried
        have hpush := Rechunker.push_of_le_of_ne (by decide) hfull hok
        obtain ⟨c', hstep, hnext⟩ := h.streamBlock_of_ne hfull hok
        rw [hpush]
        simp only [hstep]
        rw [if_pos (show _ ≠ aecOk from hok)]
        exact ⟨c', fs, rfl, fun hgood => hnext (hgood.resolve_left hok)⟩
    · -- no full block is left: the rest is carried
      have hempty := hblock.resolve_left hfull
      have hlt : (r.carry ++ inbuf).length < streamChunk := by omega
      rw [CodecImpl.streamLoop, if_neg (by omega), Rechunker.push_of_lt hlt]
      have hshort : inbuf.length < streamChunk := by omega
      obtain ⟨c', hrest, hnext⟩ := h.streamRest hempty hshort
      exact ⟨c', fs, hrest, fun _ => hnext⟩

/-- **`stream_compress` and `stream_decompress` are pushes**, up to a call that fails and is not
silent. -/
theorem Represents.streamCode (h : Represents fs₀ fout base c fs r) (api : Aec σ)
    (inbuf : InBuf) :
    ∃ c' fs', c.streamCode api fs inbuf
        = .ok ((r.push api.coder streamChunk chunk inbuf.bytes).1, c', fs')
      ∧ ((r.push api.coder streamChunk chunk inbuf.bytes).1 = 0 ∨ api.FailsSilently →
        Represents fs₀ fout base c' fs' (r.push api.coder streamChunk chunk inbuf.bytes).2) := by
  have hchunk := streamChunk_eq
  have hle := h.availIn_le
  have hbound := inbuf.bounded
  have hlen : (r.carry ++ inbuf.bytes).length = c.dStreamAvailIn + inbuf.bytes.length := by
    rw [List.length_append, h.length_carry]
  have hsum := carried_add hle hbound
  unfold CodecImpl.streamCode
  by_cases hlt : c.dStreamAvailIn + inbuf.bytes.length < streamChunk
  · obtain ⟨tmp, hcopy, hsize, hload⟩ := h.memcpy inbuf.bytes.length (Nat.le_of_lt hlt)
      (Nat.le_refl _)
    simp only [hsum, if_pos hlt, hcopy]
    rw [Rechunker.push_of_lt (by omega)]
    refine ⟨_, fs, rfl, fun _ => ?_⟩
    rw [List.take_length] at hload
    exact
      { h with
        carry := hload
        availIn_le := Nat.le_of_lt hlt
        tmpSize := h.tmpSize.trans (Nat.le_of_eq hsize.symm) }
  · rw [if_neg (by rwa [hsum]), remainder_eq hle hbound]
    exact h.streamLoop (Or.inl (by omega)) hbound

/-- **Buffers in order are pushes in order.** -/
theorem Represents.streamCodeAll (h : Represents fs₀ fout base c fs r) {bufs : List InBuf}
    (hgood : r.PushesOk api.coder streamChunk chunk (bufs.map InBuf.bytes) ∨ api.FailsSilently) :
    ∃ c' fs', c.streamCodeAll api fs bufs = .ok (c', fs')
      ∧ Represents fs₀ fout base c' fs'
        (r.pushes api.coder streamChunk chunk (bufs.map InBuf.bytes)) := by
  -- on the buffers, the object and the rechunker going on together
  induction bufs generalizing c fs r with
  | nil => exact ⟨c, fs, rfl, h⟩
  | cons inbuf bufs ih =>
    obtain ⟨c', fs', hcode, hnext⟩ := h.streamCode api inbuf
    obtain ⟨c'', fs'', hrest, hlast⟩ := ih (hnext (hgood.imp_left And.left))
      (hgood.imp_left And.right)
    refine ⟨c'', fs'', ?_, hlast⟩
    rw [CodecImpl.streamCodeAll, hcode]
    exact hrest

/-- **The last call and the end of a session.** -/
theorem Represents.streamFin (h : Represents fs₀ fout base c fs r) (mode : FlushMode)
    (hok : (api.coder.call r.state mode r.carry chunk).status = 0)
    (hfin : api.fin (api.coder.call r.state mode r.carry chunk).next = aecOk) :
    ∃ c', c.streamFin api mode fs = .ok (0, c', fs₀.put fout (base ++ (r.written
        ++ (api.coder.call r.state mode r.carry chunk).produced))) := by
  have hmade := api.coder.produced_le r.state mode r.carry chunk
  have hcount := api.coder.counted_eq _ _ _ _ hok
  obtain ⟨status, c', hend, hzero⟩ := IqzipImpl.fin_of_state api (fs₀.put fout (base ++ (r.written
    ++ (api.coder.call r.state mode r.carry chunk).produced)))
    (show (c.coded (api.coder.call r.state mode r.carry chunk)).dStrm.state = some _ from rfl)
  obtain rfl := hzero hfin
  unfold CodecImpl.streamFin
  simp only [h.codeStream, h.writeProduced hcount hmade, hend]
  rw [if_neg (show ¬ _ ≠ aecOk from not_not_intro hok)]
  exact ⟨_, rfl⟩

/-- **The files at the end of a session**, whatever the last calls return. -/
theorem Represents.streamFin_files (h : Represents fs₀ fout base c fs r) (api : Aec σ)
    (mode : FlushMode) :
    ∃ status c', c.streamFin api mode fs
      = .ok (status, c', fs₀.put fout (base ++ r.finish api.coder mode chunk)) := by
  have hmade := api.coder.produced_le r.state mode r.carry chunk
  unfold CodecImpl.streamFin
  by_cases hok : (api.coder.call r.state mode r.carry chunk).status = 0
  · have hcount := api.coder.counted_eq _ _ _ _ hok
    simp only [h.codeStream, h.writeProduced hcount hmade, Rechunker.finish, if_pos hok]
    rw [if_neg (show ¬ _ ≠ aecOk from not_not_intro hok)]
    obtain ⟨status, c', hend, -⟩ := IqzipImpl.fin_of_state api (fs₀.put fout (base ++ (r.written
      ++ (api.coder.call r.state mode r.carry chunk).produced)))
      (show (c.coded (api.coder.call r.state mode r.carry chunk)).dStrm.state = some _ from rfl)
    simp only [hend]
    exact ⟨_, _, rfl⟩
  · simp only [h.codeStream, Rechunker.finish, if_neg hok]
    rw [if_pos (show _ ≠ aecOk from hok), ← h.files]
    exact ⟨_, _, rfl⟩

end Refinement

end CodecImpl

end IQzip
