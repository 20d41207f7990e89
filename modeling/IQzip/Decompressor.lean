import IQzip.FileCoding
import IQzip.StreamCoding

/-! # The decompressor

The member functions of `decompressor_impl`, and whole sessions of them. `decompress_init` serves
both kinds of session: the configuration comes from the header of the input file, and the file is
left open behind that header. -/

namespace IQzip

open Library

variable {σ : Type}

/-- `decompressor_impl`. -/
structure DecompressorImpl (σ : Type) extends CodecImpl σ where
  dIqzipHeaderSize : Nat

/-- The scalar members `decompress_init` reads back from the header, in its order. -/
def IqzipCompressionHeader.decodedConfig (h : IqzipCompressionHeader) : Config :=
  { version := h.dPrimaryHeader.decodeVersion
    type := h.dPrimaryHeader.decodeType
    secHdrFlag := h.dPrimaryHeader.decodeSecondaryHeaderFlag
    apid := h.dPrimaryHeader.decodeApplicationProcessIdentifier
    sequenceFlags := h.dPrimaryHeader.decodeSequenceFlags
    packetSequenceCount := h.dPrimaryHeader.decodePacketSequenceCount
    packetDataLength := h.dPrimaryHeader.decodePacketDataLength
    groupingDataLength := h.dCip.decodeGroupingDataLength
    compressionTechId := h.dCip.decodeCompressionTechniqueId
    referenceSampleInterval := h.dCip.decodeReferenceSampleInterval
    preprocessorStatus := h.dCip.decodePreprocessorStatus
    predictorType := h.dCip.decodePreprocessorPredictorType
    mapperType := h.dCip.decodePreprocessorMapperType
    blockSize := h.decodeBlockSize
    dataSense := h.dCip.decodePreprocessorDataSense
    sampleResolution := h.dCip.decodePreprocessorSampleResolution
    cdsPerPacket := 0
    -- bit 6 where it stands, so 0x40 for restricted codes
    restrictedCodes := h.dCip.decodeExtendedParametersRestrictedCodeOption
    endianness := h.decodeIqzipHeaderEndianess.setWidth 8 }

namespace DecompressorImpl

/-- The constructor of `decompressor_impl`, on memory that holds `storage`. -/
def construct (storage : ObjectStorage σ) : DecompressorImpl σ :=
  { dCcsdsCipHdr := IqzipCompressionHeader.default storage.header
    dStrm := storage.strm
    outputStream := .closed
    inputStream := .closed
    config :=
      { version := 0, type := 0, secHdrFlag := 0, apid := 0, sequenceFlags := 0
        packetSequenceCount := 0, packetDataLength := 0, groupingDataLength := 0
        compressionTechId := 0, referenceSampleInterval := 0, preprocessorStatus := 0
        predictorType := 0, mapperType := 0, blockSize := 0, dataSense := 0, sampleResolution := 0
        cdsPerPacket := 0, restrictedCodes := 0, endianness := 0 }
    dTmpStream := { size := streamChunk, cell := storage.tmpStream }
    dStreamAvailIn := 0
    dOut := { size := chunk, cell := storage.out }
    dTotalOut := 0
    dIqzipHeaderSize := 0 }

/-- The part of `decompress_init` before it opens the files: parse the header, take the members
from it, initialise the stream. -/
def readHeader (c : DecompressorImpl σ) (fs : FileSystem) (fin : String) :
    Except Abort (DecompressorImpl σ) :=
  match c.dCcsdsCipHdr.parseHeaderFromFile fs fin with
  | .error e => .error e
  | .ok (size, hdr) =>
    .ok { c with
      dIqzipHeaderSize := size
      dCcsdsCipHdr := hdr
      config := hdr.decodedConfig
      dStrm := freshStream hdr.decodedConfig }

/-- `decompress_init`. -/
def decompressInit (api : Aec σ) (c : DecompressorImpl σ) (fs : FileSystem) (fin fout : String) :
    Outcome (DecompressorImpl σ) :=
  match c.readHeader fs fin with
  | .error e => .error e
  | .ok c =>
    let c := { c with inputStream := c.inputStream.openFile fs fin }
    if c.inputStream.isOpen = false then .ok (-1, c, fs)
    else
      -- the output file is emptied, not appended to
      let (output, fs) := c.outputStream.openFile fs fout false
      let c := { c with outputStream := output }
      if c.outputStream.isOpen = false then .ok (-1, c, fs)
      else
        let (status, state) := api.init c.dStrm.toAecParams
        let c := { c with
          -- the first byte the loop reads is the one the parser stopped at
          inputStream := c.inputStream.seekg c.dIqzipHeaderSize
          dStrm := { c.dStrm with state := state } }
        .ok (status, c, fs)

end DecompressorImpl

namespace IqzipImpl

/-- `decompress`, with fuel for its loop; `cell` is what the memory of its output buffer holds. -/
def decompress (api : Aec σ) (fuel : Nat) (cell : Nat → U8) (c : IqzipImpl σ) (fs : FileSystem) :
    Option (Outcome (IqzipImpl σ)) :=
  (iterate (FileLoop.step api) fuel (FileLoop.start c fs { size := chunk, cell := cell })).map
    fun
    | .error e => .error e
    | .ok (status, l) => .ok (status, l.impl, l.fs)

/-- `decompress_fin`. -/
def decompressFin (api : Aec σ) (c : IqzipImpl σ) (fs : FileSystem) : Outcome (IqzipImpl σ) :=
  c.fin api fs

end IqzipImpl

namespace CodecImpl

/-- `stream_decompress`. -/
def streamDecompress (api : Aec σ) (c : CodecImpl σ) (fs : FileSystem) (inbuf : InBuf) :
    Outcome (CodecImpl σ) :=
  c.streamCode api fs inbuf

/-- `stream_decompress_fin`. -/
def streamDecompressFin (api : Aec σ) (c : CodecImpl σ) (fs : FileSystem) :
    Outcome (CodecImpl σ) :=
  c.streamFin api .noFlush fs

end CodecImpl

namespace DecompressorImpl

/-- `decompress_init; decompress; decompress_fin`. -/
def decompressFile (api : Aec σ) (fuel : Nat) (cell : Nat → U8) (c : DecompressorImpl σ)
    (fs : FileSystem) (fin fout : String) : Option (Outcome (IqzipImpl σ)) :=
  match c.decompressInit api fs fin fout with
  | .error e => some (.error e)
  | .ok (_, c, fs) =>
    (c.decompress api fuel cell fs).map fun
      | .error e => .error e
      | .ok (_, c, fs) => c.decompressFin api fs

/-- `decompress_init; stream_decompress; …; stream_decompress_fin`. -/
def streamDecompressSession (api : Aec σ) (c : DecompressorImpl σ) (fs : FileSystem)
    (fin fout : String) (bufs : List InBuf) : Outcome (CodecImpl σ) :=
  match c.decompressInit api fs fin fout with
  | .error e => .error e
  | .ok (_, c, fs) =>
    match c.toCodecImpl.streamCodeAll api fs bufs with
    | .error e => .error e
    | .ok (c, fs) => c.streamDecompressFin api fs

end DecompressorImpl

/-! ## Sessions -/

namespace DecompressorImpl

variable {api : Aec σ} {c : DecompressorImpl σ} {fs : FileSystem} {fin fout : String}
  {bytes : List U8}

/-- The object after a `decompress_init` that opened both files. -/
def opened (c : DecompressorImpl σ) (fin fout : String) (size : Nat)
    (hdr : IqzipCompressionHeader) (state : Option σ) : DecompressorImpl σ :=
  { c with
    dIqzipHeaderSize := size
    dCcsdsCipHdr := hdr
    config := hdr.decodedConfig
    dStrm := initStream hdr.decodedConfig state
    inputStream := .opened fin size false
    outputStream := .opened fout false }

/-- **Opening both files.** On an object whose streams are closed, with an input file of at least
18 bytes and a path that can be written. -/
theorem decompressInit_eq (hin : c.inputStream = .closed) (hout : c.outputStream = .closed)
    (hfile : fs.content fin = some bytes)
    (hlen : IqzipCompressionHeader.maxHeaderSize ≤ bytes.length) (hw : fs.writable fout = true)
    {size : Nat} {hdr : IqzipCompressionHeader}
    (hparse : c.dCcsdsCipHdr.parseBuffer (bytes.take IqzipCompressionHeader.maxHeaderSize)
      = (size, hdr)) :
    c.decompressInit api fs fin fout
      = .ok ((api.init (aecParamsOf hdr.decodedConfig)).1,
          c.opened fin fout size hdr (api.init (aecParamsOf hdr.decodedConfig)).2,
          fs.put fout []) := by
  have hread := IqzipCompressionHeader.parseHeaderFromFile_eq_ok c.dCcsdsCipHdr hfile hlen
  rw [hparse] at hread
  unfold decompressInit readHeader
  simp only [hread, hin, hout, InputStream.openFile, hfile, Option.isSome_some, if_true,
    InputStream.isOpen, OutputStream.openFile, hw, OutputStream.isOpen, Bool.true_eq_false,
    if_false, InputStream.seekg, opened, initStream, freshStream, Bool.false_eq_true]

/-- What `decompress_init` leaves is open for the loop, behind the header. -/
theorem opened_represents (c : DecompressorImpl σ) (size : Nat) (hdr : IqzipCompressionHeader)
    (s₀ : σ) (hfile : fs.content fin = some bytes) (hne : fin ≠ fout) :
    FileLoop.Opened (c.opened fin fout size hdr (some s₀)).toIqzipImpl (fs.put fout []) fin fout
        size [] s₀
      ∧ ((fs.put fout []).bytesAt fin).drop size = bytes.drop size := by
  refine ⟨⟨rfl, rfl, rfl, FileSystem.content_put_self ..⟩, ?_⟩
  rw [FileSystem.bytesAt, FileSystem.content_put_of_ne _ _ hne, hfile]
  rfl

/-- **A whole file session**: what the loop wrote. The session returns 0 when the coder ends
well. -/
theorem decompressFile_returns {size : Nat} {hdr : IqzipCompressionHeader} {s₀ : σ}
    {q : Pump σ U8 U8} (cell : Nat → U8) (hin : c.inputStream = .closed)
    (hout : c.outputStream = .closed) (hfile : fs.content fin = some bytes)
    (hlen : IqzipCompressionHeader.maxHeaderSize ≤ bytes.length) (hne : fin ≠ fout)
    (hw : fs.writable fout = true)
    (hparse : c.dCcsdsCipHdr.parseBuffer (bytes.take IqzipCompressionHeader.maxHeaderSize)
      = (size, hdr))
    (hinit : (api.init (aecParamsOf hdr.decodedConfig)).2 = some s₀)
    (hsmall : ∀ q, Loops (Pump.step api.coder chunk) (Pump.start s₀ (bytes.drop size)) q →
      q.written.length < 2 ^ 31)
    (hexit : Exits (Pump.step api.coder chunk) (Pump.start s₀ (bytes.drop size)) (0, q)) :
    ∃ status c', Returns (fun fuel => c.decompressFile api fuel cell fs fin fout)
        (.ok (status, c', fs.put fout q.written))
      ∧ (api.fin q.state = aecOk → status = 0) := by
  obtain ⟨hopen, hsource⟩ := opened_represents c size hdr s₀ hfile hne
  rw [← hsource] at hsmall hexit
  obtain ⟨l, hl, hrep⟩ := (hopen.represents cell).exits hne hsmall hexit
  obtain ⟨n, hn⟩ := hl.returns
  obtain ⟨status, c', hend, hzero⟩ := IqzipImpl.fin_of_state api (fs.put fout q.written) hrep.state
  refine ⟨status, c', ⟨n, fun fuel hle => ?_⟩, hzero⟩
  simp only [decompressFile, decompressInit_eq hin hout hfile hlen hw hparse, hinit,
    IqzipImpl.decompress, hn fuel hle, Option.map_some, IqzipImpl.decompressFin, hrep.files,
    FileSystem.put_put, List.nil_append, hend]

/-- A file session that returns has run the loop to its end, below the bound. -/
theorem decompressFile_inv {size : Nat} {hdr : IqzipCompressionHeader} {s₀ : σ} {cell : Nat → U8}
    (hin : c.inputStream = .closed) (hout : c.outputStream = .closed)
    (hfile : fs.content fin = some bytes)
    (hlen : IqzipCompressionHeader.maxHeaderSize ≤ bytes.length) (hne : fin ≠ fout)
    (hw : fs.writable fout = true)
    (hparse : c.dCcsdsCipHdr.parseBuffer (bytes.take IqzipCompressionHeader.maxHeaderSize)
      = (size, hdr))
    (hinit : (api.init (aecParamsOf hdr.decodedConfig)).2 = some s₀)
    (accepts : api.coder.Accepts chunk s₀ (bytes.drop size))
    {result : Int × IqzipImpl σ × FileSystem}
    (h : Returns (fun fuel => c.decompressFile api fuel cell fs fin fout) (.ok result)) :
    ∃ q, Exits (Pump.step api.coder chunk) (Pump.start s₀ (bytes.drop size)) (0, q)
      ∧ q.written.length < 2 ^ 31 := by
  obtain ⟨hopen, hsource⟩ := opened_represents c size hdr s₀ hfile hne
  rw [← hsource] at accepts ⊢
  obtain ⟨n, hn⟩ := h
  have hrun := hn n (Nat.le_refl n)
  simp only [decompressFile, decompressInit_eq hin hout hfile hlen hw hparse, hinit,
    IqzipImpl.decompress, Option.map_map] at hrun
  obtain ⟨turns, hturns, hend⟩ := Option.map_eq_some_iff.mp hrun
  cases turns with
  | error e => cases hend
  | ok last => exact hopen.pump_exits hne accepts hturns

/-- More fuel changes nothing for a session that returns. -/
theorem decompressFile_fuelMono (d : DecompressorImpl σ) (api : Aec σ) (cell : Nat → U8)
    (fs : FileSystem) (fin fout : String) :
    FuelMono fun fuel => d.decompressFile api fuel cell fs fin fout := by
  unfold decompressFile
  split
  · exact fun _ _ _ h _ => h
  · exact ((iterate_fuelMono _ _).map _).map _

/-- **A whole streaming session**: what the blocks produced and what the last call produced. -/
theorem streamDecompressSession_eq {size : Nat} {hdr : IqzipCompressionHeader} {s₀ : σ}
    {bufs : List InBuf} {r : Rechunker σ U8 U8} (hin : c.inputStream = .closed)
    (hout : c.outputStream = .closed) (hfile : fs.content fin = some bytes)
    (hlen : IqzipCompressionHeader.maxHeaderSize ≤ bytes.length) (hw : fs.writable fout = true)
    (havail : c.dStreamAvailIn = 0) (htotal : c.dTotalOut = 0)
    (htmp : streamChunk ≤ c.dTmpStream.size) (hsize : c.dOut.size = chunk)
    (hparse : c.dCcsdsCipHdr.parseBuffer (bytes.take IqzipCompressionHeader.maxHeaderSize)
      = (size, hdr))
    (hinit : (api.init (aecParamsOf hdr.decodedConfig)).2 = some s₀)
    (hgood : (Rechunker.start s₀).PushesOk api.coder streamChunk chunk (bufs.map InBuf.bytes))
    (hr : (Rechunker.start s₀).pushes api.coder streamChunk chunk (bufs.map InBuf.bytes) = r)
    (hok : (api.coder.call r.state .noFlush r.carry chunk).status = 0)
    (hfin : api.fin (api.coder.call r.state .noFlush r.carry chunk).next = aecOk) :
    ∃ c', c.streamDecompressSession api fs fin fout bufs
      = .ok (0, c', fs.put fout (r.written
        ++ (api.coder.call r.state .noFlush r.carry chunk).produced)) := by
  have hstart : CodecImpl.Represents (fs.put fout []) fout []
      (c.opened fin fout size hdr (some s₀)).toCodecImpl (fs.put fout []) (Rechunker.start s₀) :=
    CodecImpl.represents_start fs _ rfl rfl havail htotal htmp hsize
  obtain ⟨c', fs', hrun, hrep⟩ := hstart.streamCodeAll (Or.inl hgood)
  rw [hr] at hrep
  obtain ⟨c'', hend⟩ := hrep.streamFin .noFlush hok hfin
  refine ⟨c'', ?_⟩
  simp only [streamDecompressSession, decompressInit_eq hin hout hfile hlen hw hparse, hinit, hrun,
    CodecImpl.streamDecompressFin, hend, FileSystem.put_put, List.nil_append]

end DecompressorImpl

end IQzip
