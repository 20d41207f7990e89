import IQzip.FileCoding
import IQzip.StreamCoding

/-! # The compressor

The member functions of `compressor_impl`, and whole sessions of them. The file functions use the
members of the base class only, so they are defined on `IqzipImpl`. A session goes on after a
function that returned an error, as a caller that ignores the returned status does; an abort ends
it. -/

namespace IQzip

open Library

variable {σ : Type}

/-! ## Member functions -/

/-- The constructor of `compressor_impl`, on memory that holds `storage`. -/
def CompressorImpl.construct (storage : ObjectStorage σ) (cfg : Config) : CodecImpl σ :=
  { dCcsdsCipHdr := IqzipCompressionHeader.construct storage.header cfg
    dStrm := storage.strm
    outputStream := .closed
    inputStream := .closed
    config := cfg
    dTmpStream := { size := cfg.sampleResolution.toNat * streamChunk, cell := storage.tmpStream }
    dStreamAvailIn := 0
    dOut := { size := chunk, cell := storage.out }
    dTotalOut := 0 }

namespace IqzipImpl

/-- `compress_init`. The status of `aec_encode_init` is kept for the end. -/
def compressInit (api : Aec σ) (c : IqzipImpl σ) (fs : FileSystem) (fin fout : String) :
    Outcome (IqzipImpl σ) :=
  let status := (api.init c.initAecStream.dStrm.toAecParams).1
  let c := c.initCoder api
  -- the header is written and its file closed before the input is looked at
  match c.dCcsdsCipHdr.writeHeaderToFile fs fout with
  | .error e => .error e
  | .ok fs =>
    let c := { c with inputStream := c.inputStream.openFile fs fin }
    if c.inputStream.isOpen = false then .ok (-1, c, fs)
    else
      -- opened again, behind the header
      let (output, fs) := c.outputStream.openFile fs fout true
      let c := { c with outputStream := output }
      if c.outputStream.isOpen = false then .ok (-1, c, fs) else .ok (status, c, fs)

/-- `compress`, with fuel for its loop; `cell` is what the memory of its output buffer holds. -/
def compress (api : Aec σ) (fuel : Nat) (cell : Nat → U8) (c : IqzipImpl σ) (fs : FileSystem) :
    Option (Outcome (IqzipImpl σ)) :=
  (iterate (FileLoop.step api) fuel (FileLoop.start c fs { size := chunk, cell := cell })).map
    fun
    | .error e => .error e
    | .ok (status, l) => if status ≠ aecOk then .ok (status, l.impl, l.fs) else l.flush api

/-- `compress_fin`. -/
def compressFin (api : Aec σ) (c : IqzipImpl σ) (fs : FileSystem) : Outcome (IqzipImpl σ) :=
  c.fin api fs

/-- `compress_init; compress; compress_fin`. -/
def compressFile (api : Aec σ) (fuel : Nat) (cell : Nat → U8) (c : IqzipImpl σ) (fs : FileSystem)
    (fin fout : String) : Option (Outcome (IqzipImpl σ)) :=
  match c.compressInit api fs fin fout with
  | .error e => some (.error e)
  -- the caller goes on whatever status was returned
  | .ok (_, c, fs) =>
    (c.compress api fuel cell fs).map fun
      | .error e => .error e
      | .ok (_, c, fs) => c.compressFin api fs

end IqzipImpl

namespace CodecImpl

/-- `stream_compress_init`. -/
def streamCompressInit (api : Aec σ) (c : CodecImpl σ) (fs : FileSystem) (fout : String) :
    Outcome (CodecImpl σ) :=
  let status := (api.init c.initAecStream.dStrm.toAecParams).1
  let c := { c with toIqzipImpl := c.initCoder api }
  match c.dCcsdsCipHdr.writeHeaderToFile fs fout with
  | .error e => .error e
  | .ok fs =>
    let (output, fs) := c.outputStream.openFile fs fout true
    let c := { c with outputStream := output }
    if c.outputStream.isOpen = false then .ok (-1, c, fs) else .ok (status, c, fs)

/-- `stream_compress`. -/
def streamCompress (api : Aec σ) (c : CodecImpl σ) (fs : FileSystem) (inbuf : InBuf) :
    Outcome (CodecImpl σ) :=
  c.streamCode api fs inbuf

/-- `stream_compress_fin`. -/
def streamCompressFin (api : Aec σ) (c : CodecImpl σ) (fs : FileSystem) : Outcome (CodecImpl σ) :=
  c.streamFin api .flush fs

/-- `stream_compress_init; stream_compress; …; stream_compress_fin`. -/
def streamCompressSession (api : Aec σ) (c : CodecImpl σ) (fs : FileSystem) (fout : String)
    (bufs : List InBuf) : Outcome (CodecImpl σ) :=
  match c.streamCompressInit api fs fout with
  | .error e => .error e
  | .ok (_, c, fs) =>
    match c.streamCodeAll api fs bufs with
    | .error e => .error e
    | .ok (c, fs) => c.streamCompressFin api fs

end CodecImpl

/-! ## File sessions -/

namespace IqzipImpl

variable {api : Aec σ} {c : IqzipImpl σ} {fs : FileSystem} {fin fout : String}

/-- **Opening both files.** On an object whose streams are closed, with an input file and a path
that can be written, the header is the output file. -/
theorem compressInit_eq {input : List U8} (hin : c.inputStream = .closed)
    (hout : c.outputStream = .closed) (hfile : fs.content fin = some input) (hne : fin ≠ fout)
    (hw : fs.writable fout = true) :
    c.compressInit api fs fin fout
      = .ok ((api.init (aecParamsOf c.config)).1,
          { c with
            dStrm := initStream c.config (api.init (aecParamsOf c.config)).2
            inputStream := .opened fin 0 false
            outputStream := .opened fout false },
          fs.put fout c.dCcsdsCipHdr.headerBytes) := by
  have hsource : (fs.put fout c.dCcsdsCipHdr.headerBytes).content fin = some input := by
    rw [FileSystem.content_put_of_ne _ _ hne, hfile]
  unfold compressInit
  simp only [initCoder, initAecStream, initStream, freshStream,
    IqzipCompressionHeader.writeHeaderToFile, hw, if_true, hin, hout, InputStream.openFile, hsource,
    Option.isSome_some, InputStream.isOpen,
    OutputStream.openFile, OutputStream.isOpen, FileSystem.writable_put,
    FileSystem.bytesAt_put_self, FileSystem.put_put, Bool.true_eq_false, if_false]

/-- Leaving the loop with `AEC_OK` leads to the flush. -/
theorem compress_returns_of_exits {cell : Nat → U8} {l : FileLoop σ}
    (hexit : Exits (FileLoop.step api) (FileLoop.start c fs { size := chunk, cell := cell })
      (.ok (aecOk, l))) :
    Returns (fun fuel => c.compress api fuel cell fs) (l.flush api) := by
  obtain ⟨n, hn⟩ := hexit.returns
  refine ⟨n, fun fuel hle => ?_⟩
  simp only [compress, hn fuel hle, Option.map_some, ne_eq, not_true_eq_false, if_false]

/-- **A whole run of `compress`**, from a run of the pump below the bound and a flushing call that
succeeds. -/
theorem compress_returns {pos : Nat} {base : List U8} {s₀ : σ} {q : Pump σ U8 U8}
    (cell : Nat → U8) (hopen : FileLoop.Opened c fs fin fout pos base s₀) (hne : fin ≠ fout)
    (hsmall : ∀ q, Loops (Pump.step api.coder chunk) (Pump.start s₀ ((fs.bytesAt fin).drop pos)) q →
      q.written.length < 2 ^ 31)
    (hexit : Exits (Pump.step api.coder chunk) (Pump.start s₀ ((fs.bytesAt fin).drop pos)) (0, q))
    (hok : (api.coder.call q.state .flush q.pending chunk).status = 0) :
    ∃ c', Returns (fun fuel => c.compress api fuel cell fs)
        (.ok (0, c', fs.put fout (base ++ (q.written
          ++ (api.coder.call q.state .flush q.pending chunk).produced))))
      ∧ c'.dStrm.state = some (api.coder.call q.state .flush q.pending chunk).next := by
  have hstart := hopen.represents cell
  obtain ⟨l, hl, hrep⟩ := hstart.exits hne hsmall hexit
  -- the flush writes through the same counter, which the last head still bounds
  have hlast : q.written.length < 2 ^ 31 := by
    obtain ⟨last, hloops, hleave⟩ := hexit
    rw [Pump.eq_of_step_zero hleave]
    exact hsmall last hloops
  obtain ⟨c', hflush, hstate⟩ := hrep.flush hok hlast
  have hrun := compress_returns_of_exits hl
  rw [hflush] at hrun
  exact ⟨c', hrun, hstate⟩

/-- What `compress_init` leaves is open for the loop. -/
theorem opened_of_init {input : List U8} (c : IqzipImpl σ) (base : List U8) (s₀ : σ)
    (hne : fin ≠ fout) (hfile : fs.content fin = some input) :
    FileLoop.Opened
        { c with
          dStrm := initStream c.config (some s₀)
          inputStream := .opened fin 0 false
          outputStream := .opened fout false }
        (fs.put fout base) fin fout 0 base s₀
      ∧ ((fs.put fout base).bytesAt fin).drop 0 = input := by
  refine ⟨⟨rfl, rfl, rfl, FileSystem.content_put_self ..⟩, ?_⟩
  rw [List.drop_zero, FileSystem.bytesAt, FileSystem.content_put_of_ne _ _ hne, hfile]
  rfl

/-- **A whole file session**: the header, what the loop wrote and what the flush produced. The
session returns 0 when the coder ends well. -/
theorem compressFile_returns {input : List U8} {s₀ : σ} {q : Pump σ U8 U8} (cell : Nat → U8)
    (hin : c.inputStream = .closed) (hout : c.outputStream = .closed)
    (hfile : fs.content fin = some input) (hne : fin ≠ fout) (hw : fs.writable fout = true)
    (hinit : (api.init (aecParamsOf c.config)).2 = some s₀)
    (hsmall : ∀ q, Loops (Pump.step api.coder chunk) (Pump.start s₀ input) q →
      q.written.length < 2 ^ 31)
    (hexit : Exits (Pump.step api.coder chunk) (Pump.start s₀ input) (0, q))
    (hok : (api.coder.call q.state .flush q.pending chunk).status = 0) :
    ∃ status c', Returns (fun fuel => c.compressFile api fuel cell fs fin fout)
        (.ok (status, c', fs.put fout (c.dCcsdsCipHdr.headerBytes ++ (q.written
          ++ (api.coder.call q.state .flush q.pending chunk).produced))))
      ∧ (api.fin (api.coder.call q.state .flush q.pending chunk).next = aecOk → status = 0) := by
  obtain ⟨hopen, hsource⟩ := opened_of_init c c.dCcsdsCipHdr.headerBytes s₀ hne hfile
  rw [← hsource] at hsmall hexit
  obtain ⟨c', ⟨n, hn⟩, hstate⟩ := compress_returns cell hopen hne hsmall hexit hok
  obtain ⟨status, c'', hend, hzero⟩ := fin_of_state api (fs.put fout (c.dCcsdsCipHdr.headerBytes
    ++ (q.written ++ (api.coder.call q.state .flush q.pending chunk).produced))) hstate
  refine ⟨status, c'', ⟨n, fun fuel hle => ?_⟩, hzero⟩
  simp only [compressFile, compressInit_eq hin hout hfile hne hw, hinit, hn fuel hle,
    Option.map_some, compressFin, FileSystem.put_put, hend]

/-- A file session that returns has run the loop to its end, below the bound. -/
theorem compressFile_inv {input : List U8} {s₀ : σ} {cell : Nat → U8}
    (hin : c.inputStream = .closed) (hout : c.outputStream = .closed)
    (hfile : fs.content fin = some input) (hne : fin ≠ fout) (hw : fs.writable fout = true)
    (hinit : (api.init (aecParamsOf c.config)).2 = some s₀)
    (accepts : api.coder.Accepts chunk s₀ input) {result : Int × IqzipImpl σ × FileSystem}
    (h : Returns (fun fuel => c.compressFile api fuel cell fs fin fout) (.ok result)) :
    ∃ q, Exits (Pump.step api.coder chunk) (Pump.start s₀ input) (0, q)
      ∧ q.written.length < 2 ^ 31 := by
  obtain ⟨hopen, hsource⟩ := opened_of_init c c.dCcsdsCipHdr.headerBytes s₀ hne hfile
  rw [← hsource] at accepts ⊢
  obtain ⟨n, hn⟩ := h
  have hrun := hn n (Nat.le_refl n)
  simp only [compressFile, compressInit_eq hin hout hfile hne hw, hinit, compress,
    Option.map_map] at hrun
  obtain ⟨turns, hturns, hend⟩ := Option.map_eq_some_iff.mp hrun
  cases turns with
  | error e => cases hend
  | ok last => exact hopen.pump_exits hne accepts hturns

/-- More fuel changes nothing for a session that returns. -/
theorem compressFile_fuelMono (c : IqzipImpl σ) (api : Aec σ) (cell : Nat → U8) (fs : FileSystem)
    (fin fout : String) : FuelMono fun fuel => c.compressFile api fuel cell fs fin fout := by
  unfold compressFile
  split
  · exact fun _ _ _ h _ => h
  · exact ((iterate_fuelMono _ _).map _).map _

end IqzipImpl

/-! ## Streaming sessions -/

namespace CodecImpl

variable {api : Aec σ} {c : CodecImpl σ} {fs : FileSystem} {fout : String}

/-- **Opening the output file** of a streaming session. -/
theorem streamCompressInit_eq (hout : c.outputStream = .closed) (hw : fs.writable fout = true) :
    c.streamCompressInit api fs fout
      = .ok ((api.init (aecParamsOf c.config)).1,
          { c with
            dStrm := initStream c.config (api.init (aecParamsOf c.config)).2
            outputStream := .opened fout false },
          fs.put fout c.dCcsdsCipHdr.headerBytes) := by
  unfold streamCompressInit
  simp only [IqzipImpl.initCoder, IqzipImpl.initAecStream, initStream, freshStream,
    IqzipCompressionHeader.writeHeaderToFile, hw, if_true, hout, OutputStream.openFile,
    OutputStream.isOpen, FileSystem.writable_put, FileSystem.bytesAt_put_self, FileSystem.put_put,
    Bool.true_eq_false, if_false]

/-- What a successful `stream_compress_init` leaves stands for a rechunker that carries what the
object had buffered. -/
theorem streamCompressInit_resumes {s₀ : σ} (hout : c.outputStream = .closed)
    (hw : fs.writable fout = true) (havail : c.dStreamAvailIn ≤ streamChunk)
    (htotal : c.dTotalOut = 0) (htmp : streamChunk ≤ c.dTmpStream.size)
    (hsize : c.dOut.size = chunk) (hinit : (api.init (aecParamsOf c.config)).2 = some s₀) :
    ∃ c', c.streamCompressInit api fs fout
        = .ok ((api.init (aecParamsOf c.config)).1, c', fs.put fout c.dCcsdsCipHdr.headerBytes)
      ∧ Represents (fs.put fout c.dCcsdsCipHdr.headerBytes) fout c.dCcsdsCipHdr.headerBytes c'
        (fs.put fout c.dCcsdsCipHdr.headerBytes)
        { state := s₀, carry := c.dTmpStream.load 0 c.dStreamAvailIn, written := [] } := by
  refine ⟨_, streamCompressInit_eq hout hw, ?_⟩
  rw [hinit]
  exact represents_resume fs _ rfl rfl havail htotal htmp hsize

/-- With nothing buffered, a rechunker at its start. -/
theorem streamCompressInit_represents {s₀ : σ} (hout : c.outputStream = .closed)
    (hw : fs.writable fout = true) (havail : c.dStreamAvailIn = 0) (htotal : c.dTotalOut = 0)
    (htmp : streamChunk ≤ c.dTmpStream.size) (hsize : c.dOut.size = chunk)
    (hinit : (api.init (aecParamsOf c.config)).2 = some s₀) :
    ∃ c', c.streamCompressInit api fs fout
        = .ok ((api.init (aecParamsOf c.config)).1, c', fs.put fout c.dCcsdsCipHdr.headerBytes)
      ∧ Represents (fs.put fout c.dCcsdsCipHdr.headerBytes) fout c.dCcsdsCipHdr.headerBytes c'
        (fs.put fout c.dCcsdsCipHdr.headerBytes) (Rechunker.start s₀) := by
  have h := streamCompressInit_resumes hout hw (by rw [havail]; exact Nat.zero_le _) htotal htmp
    hsize hinit
  rwa [havail, Buffer.load_zero] at h

/-- **A whole streaming session**: the header, what the blocks produced and what the flush of the
rest produced. -/
theorem streamCompressSession_eq {s₀ : σ} {bufs : List InBuf} {r : Rechunker σ U8 U8}
    (hout : c.outputStream = .closed) (hw : fs.writable fout = true) (havail : c.dStreamAvailIn = 0)
    (htotal : c.dTotalOut = 0) (htmp : streamChunk ≤ c.dTmpStream.size)
    (hsize : c.dOut.size = chunk) (hinit : (api.init (aecParamsOf c.config)).2 = some s₀)
    (hgood : (Rechunker.start s₀).PushesOk api.coder streamChunk chunk (bufs.map InBuf.bytes))
    (hr : (Rechunker.start s₀).pushes api.coder streamChunk chunk (bufs.map InBuf.bytes) = r)
    (hok : (api.coder.call r.state .flush r.carry chunk).status = 0)
    (hfin : api.fin (api.coder.call r.state .flush r.carry chunk).next = aecOk) :
    ∃ c', c.streamCompressSession api fs fout bufs
      = .ok (0, c', fs.put fout (c.dCcsdsCipHdr.headerBytes ++ (r.written
        ++ (api.coder.call r.state .flush r.carry chunk).produced))) := by
  obtain ⟨c₁, hopen, hstart⟩ :=
    streamCompressInit_represents hout hw havail htotal htmp hsize hinit
  obtain ⟨c', fs', hrun, hrep⟩ := hstart.streamCodeAll (Or.inl hgood)
  rw [hr] at hrep
  obtain ⟨c'', hend⟩ := hrep.streamFin .flush hok hfin
  refine ⟨c'', ?_⟩
  simp only [streamCompressSession, hopen, hrun, streamCompressFin, hend, FileSystem.put_put]

end CodecImpl

end IQzip
