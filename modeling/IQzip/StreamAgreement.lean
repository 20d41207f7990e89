import IQzip.Compressor
import IQzip.HeaderShape
import IQzip.Library.Eager

/-! # The streaming compressor against the file compressor

Over a coder that uses everything it is offered and does not care how its input is cut, both
sessions write the header and one feed of the whole input: the file loop cuts it into chunks of
`CHUNK` bytes, the streaming functions into blocks of `STREAM_CHUNK` bytes that do not depend on
the caller's buffers. -/

namespace IQzip

open Library

variable {σ : Type}

/-- What a feeding coder makes of a whole input. -/
def codedBy (feed : σ → List U8 → σ × List U8) (finish : σ → List U8) (s₀ : σ)
    (input : List U8) : List U8 :=
  (feed s₀ input).2 ++ finish (feed s₀ input).1

section Feeding

variable {api : Aec σ} {s₀ : σ} {input : List U8} {feed : σ → List U8 → σ × List U8}
  {finish : σ → List U8} {fs : FileSystem} {fin fout : String}

/-- **The file session over a feeding coder** writes the header and one feed of the file. -/
theorem compressFile_feeds {c : IqzipImpl σ} (cell : Nat → U8)
    (hinit : api.init (aecParamsOf c.config) = (aecOk, some s₀))
    (feeds : api.coder.Feeds chunk s₀ input feed finish) (hfin : ∀ s, api.fin s = aecOk)
    (htotal : (codedBy feed finish s₀ input).length < 2 ^ 31) (hin : c.inputStream = .closed)
    (hout : c.outputStream = .closed) (hfile : fs.content fin = some input) (hne : fin ≠ fout)
    (hw : fs.writable fout = true) :
    ∃ c', Returns (fun fuel => c.compressFile api fuel cell fs fin fout)
      (.ok (0, c', fs.put fout (c.dCcsdsCipHdr.headerBytes ++ codedBy feed finish s₀ input))) := by
  have hsmall : ∀ q, Loops (Pump.step api.coder chunk) (Pump.start s₀ input) q →
      q.written.length < 2 ^ 31 := by
    intro q hq
    have hle := Pump.length_written_le feeds.paced hq
    rw [codedBy, List.length_append] at htotal
    omega
  obtain ⟨q, hexit, hpending, -, hwritten, hreach⟩ := Pump.exists_exits_emit feeds.paced
    Nat.one_pos (by decide) feeds.accepts (Nat.one_dvd _) (Or.inl (Nat.one_dvd _))
  -- the loop has used everything, and the flush is offered nothing
  have hall : input ++ q.pending = input := by rw [hpending, List.append_nil]
  have hlen : q.pending.length ≤ chunk := by rw [hpending]; exact Nat.zero_le _
  obtain ⟨status, c', hrun, hzero⟩ := IqzipImpl.compressFile_returns cell hin hout hfile hne hw
    (by rw [hinit]) hsmall hexit (feeds.call_flush hreach hall hlen).1
  rw [hzero (hfin _), feeds.made_append_flush hreach hall hlen] at hrun
  exact ⟨c', hrun⟩

/-- **The streaming session over a feeding coder** writes the header and one feed of all the
buffers. -/
theorem streamCompressSession_feeds {c : CodecImpl σ} {bufs : List InBuf}
    (hinit : api.init (aecParamsOf c.config) = (aecOk, some s₀))
    (feeds : api.coder.Feeds chunk s₀ input feed finish) (hfin : ∀ s, api.fin s = aecOk)
    (hout : c.outputStream = .closed) (hw : fs.writable fout = true) (havail : c.dStreamAvailIn = 0)
    (htotal : c.dTotalOut = 0) (htmp : streamChunk ≤ c.dTmpStream.size)
    (hsize : c.dOut.size = chunk) (hbufs : (bufs.map InBuf.bytes).flatten = input) :
    ∃ c', c.streamCompressSession api fs fout bufs
      = .ok (0, c', fs.put fout (c.dCcsdsCipHdr.headerBytes ++ codedBy feed finish s₀ input)) := by
  obtain ⟨hgood, hcarry, hreach⟩ := Rechunker.pushes_feeds feeds (n := streamChunk) (by decide)
    (by decide) hbufs
  have hall := flatten_blocks (n := streamChunk) (by decide) input
  rw [← hcarry] at hall
  -- the carried rest is shorter than a block, so the flush may be offered it
  have hlen : ((Rechunker.start s₀).pushes api.coder streamChunk chunk
      (bufs.map InBuf.bytes)).carry.length ≤ chunk := by
    have hlt := length_rest_lt (n := streamChunk) (by decide) input
    have := chunk_eq
    have := streamChunk_eq
    rw [hcarry]
    omega
  obtain ⟨c', hrun⟩ := CodecImpl.streamCompressSession_eq hout hw havail htotal htmp hsize
    (by rw [hinit]) hgood rfl (feeds.call_flush hreach hall hlen).1 (hfin _)
  rw [feeds.made_append_flush hreach hall hlen] at hrun
  exact ⟨c', hrun⟩

/-- **Streaming and file compression agree for every split of the input.** Over libaec as a
feeding coder whose output stays below `2^31` bytes, new compressors with one configuration write
one and the same file: the file session on a file with the input, and the streaming session on any
buffers whose concatenation is the input. -/
theorem compress_agree {cfg : Config} (hinit : api.init (aecParamsOf cfg) = (aecOk, some s₀))
    (feeds : api.coder.Feeds chunk s₀ input feed finish) (hfin : ∀ s, api.fin s = aecOk)
    (htotal : (codedBy feed finish s₀ input).length < 2 ^ 31) (hres : 1 ≤ cfg.sampleResolution)
    {storage storage' : ObjectStorage σ} (hheader : storage'.header = storage.header)
    (cell : Nat → U8) (hfile : fs.content fin = some input) (hne : fin ≠ fout)
    (hw : fs.writable fout = true) :
    ∃ content,
      (∃ c fs', Returns (fun fuel => (CompressorImpl.construct storage cfg).compressFile api fuel
          cell fs fin fout) (.ok (0, c, fs')) ∧ fs'.content fout = some content)
      ∧ ∀ bufs : List InBuf, (bufs.map InBuf.bytes).flatten = input →
        ∃ c fs', (CompressorImpl.construct storage' cfg).streamCompressSession api fs fout bufs
          = .ok (0, c, fs') ∧ fs'.content fout = some content := by
  -- `d_tmp_stream` has `d_sample_resolution * STREAM_CHUNK` bytes
  have htmp : streamChunk ≤ (CompressorImpl.construct storage' cfg).dTmpStream.size :=
    Nat.le_mul_of_pos_left _ (by bv_omega)
  refine ⟨(IqzipCompressionHeader.construct storage.header cfg).headerBytes
    ++ codedBy feed finish s₀ input, ?_, ?_⟩
  · obtain ⟨c, hrun⟩ := compressFile_feeds (c := (CompressorImpl.construct storage cfg).toIqzipImpl)
      cell hinit feeds hfin htotal rfl rfl hfile hne hw
    exact ⟨c, _, hrun, FileSystem.content_put_self ..⟩
  · intro bufs hbufs
    obtain ⟨c, hrun⟩ := streamCompressSession_feeds (c := CompressorImpl.construct storage' cfg)
      hinit feeds hfin rfl hw rfl rfl htmp rfl hbufs
    rw [← hheader]
    exact ⟨c, _, hrun, FileSystem.content_put_self ..⟩

end Feeding

/-! ## A concrete coder -/

/-- A configuration of the tool for samples of one byte, without preprocessing. -/
abbrev byteConfig : Config := commandLineConfig 0 0 1 0 8 128 8

/-- Eight samples of eight bits. -/
def eightSamples : List U8 := [0x00, 0xff, 0x00, 0xff, 0x00, 0xff, 0x00, 0xff]

/-- The eight samples in one buffer. -/
def eightSamplesBuffer : InBuf := { bytes := eightSamples, bounded := by decide }

/-- A block of `eightSamples` with the no-compression option: the bits `111`, the samples, and
padding to a byte. -/
def eightSamplesCoded : List U8 := [0xe0, 0x1f, 0xe0, 0x1f, 0xe0, 0x1f, 0xe0, 0x1f, 0xe0]

/-- The code of `eightSamples`; other inputs have none here. -/
def eightSamplesCode (xs : List U8) : List U8 := if xs = eightSamples then eightSamplesCoded else []

/-- The encoder on `eightSamples` with a reference interval of more than one block: nothing comes
out before the flush. -/
def eightSamplesEncoder : Aec (Given U8) := .ofFunctions (fun _ => []) eightSamplesCode

/-- Object memory that is all zero. -/
def zeroStorage (σ : Type) : ObjectStorage σ :=
  { header := .zero
    strm := freshStream (commandLineConfig 0 0 0 0 0 0 0)
    tmpStream := fun _ => 0
    out := fun _ => 0 }

/-- It feeds. -/
theorem eightSamplesEncoder_feeds :
    eightSamplesEncoder.coder.Feeds chunk Given.start eightSamples
      (Coder.eagerFeed fun _ => []) (Coder.eagerFinish eightSamplesCode) := by
  have hfit : (eightSamplesCode eightSamples).length ≤ chunk := by decide
  exact Coder.eager_feeds (fun _ _ _ => List.prefix_refl _) (fun _ => List.nil_prefix) hfit

/-- The agreement for `eightSamples`. -/
theorem compress_agree_eightSamples :
    ∃ content,
      (∃ c fs', Returns (fun fuel =>
          (CompressorImpl.construct (zeroStorage _) byteConfig).compressFile eightSamplesEncoder
            fuel (fun _ => 0) (FileSystem.empty.put "in" eightSamples) "in" "out.iqz")
          (.ok (0, c, fs')) ∧ fs'.content "out.iqz" = some content)
      ∧ ∀ bufs : List InBuf, (bufs.map InBuf.bytes).flatten = eightSamples →
        ∃ c fs', (CompressorImpl.construct (zeroStorage _) byteConfig).streamCompressSession
            eightSamplesEncoder (FileSystem.empty.put "in" eightSamples) "out.iqz" bufs
          = .ok (0, c, fs') ∧ fs'.content "out.iqz" = some content :=
  compress_agree rfl eightSamplesEncoder_feeds (fun _ => rfl) (by decide) (by decide) rfl _
    (FileSystem.content_put_self ..) (by decide) rfl

end IQzip
