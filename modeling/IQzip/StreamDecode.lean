import IQzip.Decompressor
import IQzip.StreamAgreement
import IQzip.Library.Backlog

/-! # The streaming decompressor against the file decompressor

The file loop calls the decoder until it produces nothing, so everything the payload determines
reaches the output. The streaming functions call it once for each block of `STREAM_CHUNK` bytes and
once at the end, and forget what a call left unread. `decompress_agree_iff` says for which payloads
they agree with the file loop whatever decoder is behind them: those that keep pace with `CHUNK`
bytes of output space for each call. `decompress_disagree` is one that does not. -/

namespace IQzip

open Library

variable {σ : Type}

/-- A sample takes one to four bytes. -/
theorem AecParams.bytesPerSample_bounds (p : AecParams) :
    0 < p.bytesPerSample ∧ p.bytesPerSample ≤ 4 := by
  unfold bytesPerSample
  split_ifs <;> decide

/-- And fits in the output space. -/
theorem AecParams.bytesPerSample_le (p : AecParams) : p.bytesPerSample ≤ chunk :=
  p.bytesPerSample_bounds.2.trans (by decide)

/-- The payload keeps pace with calls that have `CHUNK` bytes of output space, when the decoder
makes groups of `g` bytes and may stop with less than a sample's space left. -/
abbrev DecodesInPace (g : Nat) (p : AecParams) (emit : List U8 → List U8) (payload : List U8) :
    Prop :=
  KeepsPace emit streamChunk (stopAt chunk p.bytesPerSample g) payload

section Paced

variable {api : Aec σ} {c : DecompressorImpl σ} {fs : FileSystem} {fin fout : String}
  {bytes : List U8} {size : Nat} {hdr : IqzipCompressionHeader} {s₀ : σ} {width : Nat}
  {emit : List U8 → List U8}

/-- **The file session over a paced decoder** writes everything the payload determines. It returns 0
when the decoder ends well. -/
theorem decompressFile_paced (cell : Nat → U8) (hin : c.inputStream = .closed)
    (hout : c.outputStream = .closed) (hfile : fs.content fin = some bytes)
    (hlen : IqzipCompressionHeader.maxHeaderSize ≤ bytes.length) (hne : fin ≠ fout)
    (hw : fs.writable fout = true)
    (hparse : c.dCcsdsCipHdr.parseBuffer (bytes.take IqzipCompressionHeader.maxHeaderSize)
      = (size, hdr))
    (hinit : (api.init (aecParamsOf hdr.decodedConfig)).2 = some s₀)
    (paced : api.coder.Paced chunk s₀ (bytes.drop size) 1 width emit) (hpos : 0 < width)
    (hwidth : width ≤ chunk) (accepts : api.coder.Accepts chunk s₀ (bytes.drop size))
    (htotal : (emit (bytes.drop size)).length < 2 ^ 31) :
    ∃ status c', Returns (fun fuel => c.decompressFile api fuel cell fs fin fout)
        (.ok (status, c', fs.put fout (emit (bytes.drop size))))
      ∧ ((∀ s, api.fin s = aecOk) → status = 0) := by
  obtain ⟨q, hexit, -, -, hwritten, -⟩ := Pump.exists_exits_emit paced hpos hwidth accepts
    (Nat.one_dvd _) (Or.inl (Nat.one_dvd _))
  -- no head of the loop has written more than the payload determines
  have hsmall : ∀ q, Loops (Pump.step api.coder chunk) (Pump.start s₀ (bytes.drop size)) q →
      q.written.length < 2 ^ 31 := by
    intro q hq
    have hle := Pump.length_written_le paced hq
    omega
  obtain ⟨status, c', hrun, hzero⟩ := DecompressorImpl.decompressFile_returns cell hin hout hfile
    hlen hne hw hparse hinit hsmall hexit
  rw [hwritten] at hrun
  exact ⟨status, c', hrun, fun hfin => hzero (hfin _)⟩

/-- **The streaming session over a paced decoder that keeps pace** writes the same. -/
theorem streamDecompressSession_paced {bufs : List InBuf} {g : Nat}
    (hin : c.inputStream = .closed) (hout : c.outputStream = .closed)
    (hfile : fs.content fin = some bytes)
    (hlen : IqzipCompressionHeader.maxHeaderSize ≤ bytes.length) (hw : fs.writable fout = true)
    (havail : c.dStreamAvailIn = 0) (hcount : c.dTotalOut = 0)
    (htmp : streamChunk ≤ c.dTmpStream.size) (hsize : c.dOut.size = chunk)
    (hparse : c.dCcsdsCipHdr.parseBuffer (bytes.take IqzipCompressionHeader.maxHeaderSize)
      = (size, hdr))
    (hinit : (api.init (aecParamsOf hdr.decodedConfig)).2 = some s₀)
    (paced : api.coder.Paced chunk s₀ (bytes.drop size) 1
      (aecParamsOf hdr.decodedConfig).bytesPerSample emit)
    (grouped : api.coder.Grouped chunk s₀ (bytes.drop size) g)
    (accepts : api.coder.Accepts chunk s₀ (bytes.drop size)) (hfin : ∀ s, api.fin s = aecOk)
    (keeps : DecodesInPace g (aecParamsOf hdr.decodedConfig) emit (bytes.drop size))
    (hbufs : (bufs.map InBuf.bytes).flatten = bytes.drop size) :
    ∃ c', c.streamDecompressSession api fs fin fout bufs
      = .ok (0, c', fs.put fout (emit (bytes.drop size))) := by
  obtain ⟨hgood, -, -, hok, -, hall⟩ := keeps.delivers paced grouped accepts
    (show 0 < streamChunk by decide) (by decide) (AecParams.bytesPerSample_le _) hbufs
  obtain ⟨c', hrun⟩ := DecompressorImpl.streamDecompressSession_eq hin hout hfile hlen hw havail
    hcount htmp hsize hparse hinit hgood rfl hok (hfin _)
  exact ⟨c', hall ▸ hrun⟩

end Paced

/-! ## Agreement -/

section Agreement

/-- **Nothing is left unread**: what `aec_decode` has used, after the call `stream_decompress_fin`
makes, is the payload. -/
def DecompressorImpl.ReadsAll (api : Aec σ) (d : DecompressorImpl (Coder.Ledger σ U8 U8))
    (fs : FileSystem) (fin fout : String) (payload : List U8) (bufs : List InBuf) : Prop :=
  ∃ d' fs₁ c fs₂ c' led,
    d.decompressInit api.recording fs fin fout = .ok (aecOk, d', fs₁)
      ∧ d'.toCodecImpl.streamCodeAll api.recording fs₁ bufs = .ok (c, fs₂)
      ∧ c.codeStream api.recording .noFlush = .ok (aecOk, c')
      ∧ c'.dStrm.state = some led ∧ led.used = payload

/-- **The sessions of a new decompressor agree**: the file session and the streaming session return
0 and leave the same in the output file, and the streaming session leaves nothing unread. -/
structure SessionsAgree (api : Aec σ) (storage : ObjectStorage (Coder.Ledger σ U8 U8))
    (cell : Nat → U8) (fs : FileSystem) (fin fout : String) (payload : List U8)
    (bufs : List InBuf) : Prop where
  same : ∃ content,
    (∃ c fs', Returns (fun fuel => (DecompressorImpl.construct storage).decompressFile
        api.recording fuel cell fs fin fout) (.ok (0, c, fs')) ∧ fs'.content fout = some content)
    ∧ ∃ c fs', (DecompressorImpl.construct storage).streamDecompressSession api.recording fs fin
        fout bufs = .ok (0, c, fs') ∧ fs'.content fout = some content
  read : (DecompressorImpl.construct storage).ReadsAll api fs fin fout payload bufs

/-- libaec as a decoder: a call makes all that `emit` makes of what it has read, in groups of `g`
bytes, or leaves less space than a sample needs. No call on the payload fails. -/
structure PacedDecoder (api : Aec σ) (p : AecParams) (payload : List U8) (g : Nat)
    (emit : List U8 → List U8) (s₀ : σ) : Prop where
  init : api.init p = (aecOk, some s₀)
  paced : api.coder.Paced chunk s₀ payload 1 p.bytesPerSample emit
  grouped : api.coder.Grouped chunk s₀ payload g
  accepts : api.coder.Accepts chunk s₀ payload
  fin : ∀ s, api.fin s = aecOk

variable {api : Aec σ} {storage : ObjectStorage (Coder.Ledger σ U8 U8)} {cell : Nat → U8}
  {fs : FileSystem} {fin fout : String} {bytes : List U8} {size g : Nat}
  {hdr : IqzipCompressionHeader} {s₀ : σ} {emit : List U8 → List U8} {bufs : List InBuf}

/-- **A streaming session of a new decompressor** none of whose calls fails, up to its last call and
as a whole. -/
theorem streamDecompressSession_last (hfile : fs.content fin = some bytes)
    (hlen : 18 ≤ bytes.length) (hw : fs.writable fout = true)
    (hparse : (DecompressorImpl.construct storage).dCcsdsCipHdr.parseBuffer (bytes.take 18)
      = (size, hdr))
    (hinit : api.init (aecParamsOf hdr.decodedConfig) = (aecOk, some s₀))
    (hfin : ∀ s, api.fin s = aecOk) {r : Rechunker (Coder.Ledger σ U8 U8) U8 U8}
    (hr : (Rechunker.start (Coder.Ledger.start s₀)).pushes api.coder.recording streamChunk chunk
      (bufs.map InBuf.bytes) = r)
    (hgood : (Rechunker.start (Coder.Ledger.start s₀)).PushesOk api.coder.recording streamChunk
      chunk (bufs.map InBuf.bytes))
    (hok : (r.last api.coder.recording chunk).status = 0) :
    (∃ d' fs₁ c fs₂ c',
        (DecompressorImpl.construct storage).decompressInit api.recording fs fin fout
            = .ok (aecOk, d', fs₁)
          ∧ d'.toCodecImpl.streamCodeAll api.recording fs₁ bufs = .ok (c, fs₂)
          ∧ c.codeStream api.recording .noFlush = .ok (aecOk, c')
          ∧ c'.dStrm.state = some (r.last api.coder.recording chunk).next)
      ∧ ∃ c', (DecompressorImpl.construct storage).streamDecompressSession api.recording fs fin
          fout bufs
        = .ok (0, c', fs.put fout (r.written ++ (r.last api.coder.recording chunk).produced)) := by
  have hrec : api.recording.init (aecParamsOf hdr.decodedConfig)
      = (aecOk, some (Coder.Ledger.start s₀)) := by
    simp only [Aec.recording, hinit, Option.map_some]
  have hpushes : (Rechunker.start (Coder.Ledger.start s₀)).PushesOk api.recording.coder streamChunk
      chunk (bufs.map InBuf.bytes) := hgood
  constructor
  · have hopen : (DecompressorImpl.construct storage).decompressInit api.recording fs fin fout
        = _ := DecompressorImpl.decompressInit_eq rfl rfl hfile hlen hw hparse
    rw [hrec] at hopen
    have hstart : CodecImpl.Represents (fs.put fout []) fout []
        ((DecompressorImpl.construct storage).opened fin fout size hdr
          (some (Coder.Ledger.start s₀))).toCodecImpl (fs.put fout [])
        (Rechunker.start (Coder.Ledger.start s₀)) :=
      CodecImpl.represents_start fs _ rfl rfl rfl rfl (Nat.le_refl _) rfl
    obtain ⟨c, fs₂, hrun, hrep⟩ := hstart.streamCodeAll (Or.inl hpushes)
    have hcode : c.codeStream api.recording .noFlush
        = .ok ((r.last api.coder.recording chunk).status,
          c.coded (r.last api.coder.recording chunk)) := by
      rw [show Rechunker.pushes api.recording.coder _ _ _ _ = r from hr] at hrep
      exact hrep.codeStream .noFlush
    rw [show (r.last api.coder.recording chunk).status = aecOk from hok] at hcode
    exact ⟨_, _, c, fs₂, _, hopen, hrun, hcode, rfl⟩
  · exact DecompressorImpl.streamDecompressSession_eq rfl rfl hfile hlen hw rfl rfl (Nat.le_refl _)
      rfl hparse (congrArg Prod.snd hrec) hgood hr hok (hfin _)

/-- **When the sessions agree**, if no call of the streaming one fails: its last call of the decoder
completes the payload and the output. -/
theorem sessionsAgree_iff (hfile : fs.content fin = some bytes) (hlen : 18 ≤ bytes.length)
    (hne : fin ≠ fout) (hw : fs.writable fout = true)
    (hparse : (DecompressorImpl.construct storage).dCcsdsCipHdr.parseBuffer (bytes.take 18)
      = (size, hdr))
    (decoder : PacedDecoder api (aecParamsOf hdr.decodedConfig) (bytes.drop size) g emit s₀)
    (htotal : (emit (bytes.drop size)).length < 2 ^ 31)
    {r : Rechunker (Coder.Ledger σ U8 U8) U8 U8}
    (hr : (Rechunker.start (Coder.Ledger.start s₀)).pushes api.coder.recording streamChunk chunk
      (bufs.map InBuf.bytes) = r)
    (hgood : (Rechunker.start (Coder.Ledger.start s₀)).PushesOk api.coder.recording streamChunk
      chunk (bufs.map InBuf.bytes))
    (hok : (r.last api.coder.recording chunk).status = 0) :
    SessionsAgree api storage cell fs fin fout (bytes.drop size) bufs
      ↔ (r.last api.coder.recording chunk).next.used = bytes.drop size
        ∧ r.written ++ (r.last api.coder.recording chunk).produced = emit (bytes.drop size) := by
  have hrec : (api.recording.init (aecParamsOf hdr.decodedConfig)).2
      = some (Coder.Ledger.start s₀) := by
    simp only [Aec.recording, decoder.init, Option.map_some]
  obtain ⟨status, cfile, hrun, hzero⟩ := decompressFile_paced
    (c := DecompressorImpl.construct storage) cell rfl rfl hfile hlen hne hw hparse hrec
    decoder.paced.recording (AecParams.bytesPerSample_bounds _).1 (AecParams.bytesPerSample_le _)
    decoder.accepts.recording htotal
  obtain rfl := hzero fun l => decoder.fin l.state
  obtain ⟨⟨d', fs₁, c, fs₂, c', hopen, hcode, hcall, hstate⟩, cstream, hsession⟩ :=
    streamDecompressSession_last hfile hlen hw hparse decoder.init decoder.fin hr hgood hok
  constructor
  · rintro ⟨⟨content, ⟨_, _, hrun', hwhole⟩, _, _, hsession', hpart⟩,
      _, _, _, _, _, led, hopen', hcode', hcall', hstate', hused⟩
    cases hrun.unique hrun'
    rw [hsession] at hsession'
    cases hsession'
    rw [FileSystem.content_put_self, Option.some.injEq] at hwhole hpart
    rw [hopen] at hopen'
    cases hopen'
    rw [hcode] at hcode'
    cases hcode'
    rw [hcall] at hcall'
    cases hcall'
    rw [hstate] at hstate'
    cases hstate'
    exact ⟨hused, hpart.trans hwhole.symm⟩
  · rintro ⟨hused, hall⟩
    rw [hall] at hsession
    exact
      { same := ⟨_, ⟨cfile, _, hrun, FileSystem.content_put_self ..⟩, cstream, _, hsession,
          FileSystem.content_put_self ..⟩
        read := ⟨d', fs₁, c, fs₂, c', _, hopen, hcode, hcall, hstate, hused⟩ }

/-- **Sessions that agree are complete**, over a decoder that never fails. -/
theorem SessionsAgree.complete
    (h : SessionsAgree api storage cell fs fin fout (bytes.drop size) bufs)
    (hfile : fs.content fin = some bytes) (hlen : 18 ≤ bytes.length) (hne : fin ≠ fout)
    (hw : fs.writable fout = true)
    (hparse : (DecompressorImpl.construct storage).dCcsdsCipHdr.parseBuffer (bytes.take 18)
      = (size, hdr))
    (decoder : PacedDecoder api (aecParamsOf hdr.decodedConfig) (bytes.drop size) g emit s₀)
    (htotal : (emit (bytes.drop size)).length < 2 ^ 31)
    (never : ∀ s xs, (api.coder.call s .noFlush xs chunk).status = 0) :
    Rechunker.Complete api.coder streamChunk chunk s₀ emit (bytes.drop size)
      (bufs.map InBuf.bytes) := by
  have hgood := Rechunker.pushesOk_of_status (n := streamChunk) (c := api.coder.recording)
    (m := chunk) (fun l xs => never l.state xs) (by decide) (Coder.Ledger.start s₀)
    (bufs.map InBuf.bytes)
  have hok : (((Rechunker.start (Coder.Ledger.start s₀)).pushes api.coder.recording streamChunk
      chunk (bufs.map InBuf.bytes)).last api.coder.recording chunk).status = 0 := never _ _
  obtain ⟨hused, hall⟩ :=
    (sessionsAgree_iff hfile hlen hne hw hparse decoder htotal rfl hgood hok).mp h
  exact ⟨hgood, hok, hused, hall⟩

end Agreement

/-- libaec around a lazy coder. -/
def Aec.ofLazy (emit : List U8 → List U8) (width u : Nat) : Aec (Given U8) where
  init _ := (aecOk, some Given.start)
  coder := Coder.lazy emit width u
  fin _ := aecOk

/-- It is a decoder as any other. -/
theorem Aec.ofLazy_decoder {p : AecParams} {payload : List U8} {g : Nat}
    {emit : List U8 → List U8} (emits : Emits g emit) (hg : 0 < g) (hgw : g ≤ p.bytesPerSample) :
    PacedDecoder (Aec.ofLazy emit p.bytesPerSample (stopAt chunk p.bytesPerSample g)) p payload g
      emit Given.start where
  init := rfl
  paced := Coder.lazy_paced emits hg hgw p.bytesPerSample_le
  grouped := Coder.lazy_grouped emits hg hgw p.bytesPerSample_le
  accepts := Coder.lazy_accepts ..
  fin _ := rfl

/-- Every payload comes in buffers. -/
theorem exists_buffers (payload : List U8) :
    ∃ bufs : List InBuf, (bufs.map InBuf.bytes).flatten = payload := by
  induction payload with
  | nil => exact ⟨[], rfl⟩
  | cons x xs ih =>
    obtain ⟨bufs, rfl⟩ := ih
    exact ⟨{ bytes := [x], bounded := Nat.one_lt_two_pow (by decide) } :: bufs, rfl⟩

/-- **The decompressors agree on a payload**: for every decoder that makes `emit` of it, every
object on header memory like this, and every way to cut it into buffers. -/
def DecompressorsAgree (header : HeaderStorage) (cell : Nat → U8) (fs : FileSystem)
    (fin fout : String) (p : AecParams) (payload : List U8) (g : Nat)
    (emit : List U8 → List U8) : Prop :=
  ∀ (σ : Type) (api : Aec σ) (s₀ : σ) (storage : ObjectStorage (Coder.Ledger σ U8 U8)),
    storage.header = header → PacedDecoder api p payload g emit s₀ →
    ∀ bufs : List InBuf, (bufs.map InBuf.bytes).flatten = payload →
      SessionsAgree api storage cell fs fin fout payload bufs

/-- **Streaming and file decompression agree exactly when the payload keeps pace.** A file of at
least 18 bytes, and a payload behind its header of which `emit` makes less than `2^31` bytes, in
groups of `g` bytes: the file session and the streaming session agree whatever the decoder and the
buffers are if and only if every block of `STREAM_CHUNK` bytes is read, and the end is reached, with
`CHUNK` bytes of output space for each call. -/
theorem decompress_agree_iff {header : HeaderStorage} {fs : FileSystem} {fin fout : String}
    {bytes : List U8} {size : Nat} {hdr : IqzipCompressionHeader} {emit : List U8 → List U8}
    {g : Nat} (cell : Nat → U8) (hfile : fs.content fin = some bytes) (hlen : 18 ≤ bytes.length)
    (hne : fin ≠ fout) (hw : fs.writable fout = true)
    (hparse : (IqzipCompressionHeader.default header).parseBuffer (bytes.take 18) = (size, hdr))
    (emits : Emits g emit) (hg : 0 < g)
    (hgw : g ≤ (aecParamsOf hdr.decodedConfig).bytesPerSample)
    (htotal : (emit (bytes.drop size)).length < 2 ^ 31) :
    DecompressorsAgree header cell fs fin fout (aecParamsOf hdr.decodedConfig) (bytes.drop size) g
        emit
      ↔ DecodesInPace g (aecParamsOf hdr.decodedConfig) emit (bytes.drop size) := by
  have hwidth := (aecParamsOf hdr.decodedConfig).bytesPerSample_le
  have hchunk : 0 < streamChunk := by decide
  constructor
  · -- the decoder that always stops as early as it may
    intro hagree
    obtain ⟨bufs, hbufs⟩ := exists_buffers (bytes.drop size)
    have decoder := @Aec.ofLazy_decoder _ (bytes.drop size) g emit emits hg hgw
    have hsessions := hagree _ _ _ { zeroStorage _ with header } rfl decoder bufs hbufs
    have complete := hsessions.complete hfile hlen hne hw hparse decoder htotal
      fun s xs => Coder.lazy_status ..
    exact keepsPace_of_complete emits hg hgw hwidth hchunk hbufs complete
  · rintro keeps σ api s₀ storage rfl decoder bufs hbufs
    have complete := keeps.complete decoder.paced decoder.grouped decoder.accepts hchunk (by decide)
      hwidth hbufs
    exact (sessionsAgree_iff hfile hlen hne hw hparse decoder htotal rfl complete.pushesOk
      complete.status).mpr ⟨complete.read, complete.written⟩

/-! ## A decoder for the agreement -/

/-- The decoder of one code, which makes `samples` of `coded`. -/
def decodeOne (coded samples xs : List U8) : List U8 := if coded <+: xs then samples else []

/-- More input decodes to more. -/
theorem decodeOne_mono (coded samples : List U8) ⦃xs ys : List U8⦄ (h : xs <+: ys) :
    decodeOne coded samples xs <+: decodeOne coded samples ys := by
  unfold decodeOne
  -- the code that has been seen stays seen
  by_cases hx : coded <+: xs
  · rw [if_pos hx, if_pos (hx.trans h)]
  · rw [if_neg hx]
    exact List.nil_prefix

/-- The decoder of `eightSamples`. -/
def eightSamplesDecode (xs : List U8) : List U8 := decodeOne eightSamplesCoded eightSamples xs

/-- Eight samples keep pace. -/
theorem eightSamplesDecode_inPace (p : AecParams) (payload : List U8) :
    DecodesInPace 1 p eightSamplesDecode payload := by
  have hle : (eightSamplesDecode payload).length ≤ 8 := by
    unfold eightSamplesDecode decodeOne
    split_ifs <;> decide
  have hlt : 8 < stopAt chunk p.bytesPerSample 1 := by
    have hstop := @lt_stopAt chunk p.bytesPerSample 1 Nat.one_pos
    have := p.bytesPerSample_bounds.2
    have := chunk_eq
    omega
  exact .of_lt (decodeOne_mono _ _) (hle.trans_lt hlt)

/-- The file of `eightSamples` coded. -/
def eightSamplesFile : List U8 := (zeroedHeader byteConfig).headerBytes ++ eightSamplesCoded

/-- The header the decompressor reads from `eightSamplesFile`. -/
def eightSamplesHeader : IqzipCompressionHeader :=
  ((DecompressorImpl.construct (zeroStorage (Given U8))).dCcsdsCipHdr.parseBuffer
    (eightSamplesFile.take 18)).2

/-! ## A decoder that runs out of room -/

/-- A decoder that makes a block of 16384 samples of each input byte, as the low-entropy options
do. -/
def expand (xs : List U8) : List U8 := xs.flatMap (List.replicate 16384)

/-- Every byte is expanded alike. -/
theorem length_expand (xs : List U8) : (expand xs).length = xs.length * 16384 := by
  simp only [expand, List.length_flatMap, List.length_replicate, List.map_const',
    List.sum_replicate_nat]

/-- More input expands to more. -/
theorem expand_mono ⦃xs ys : List U8⦄ (h : xs <+: ys) : expand xs <+: expand ys := by
  obtain ⟨t, rfl⟩ := h
  rw [expand, expand, List.flatMap_append]
  exact List.prefix_append ..

/-- One kilobyte of payload, which expands to sixteen megabytes. -/
def denseBuffer : InBuf :=
  { bytes := List.replicate 1024 0
    bounded := by rw [List.length_replicate]; decide }

/-- A file with the header of `eightSamples` and the dense payload. -/
def denseFile : List U8 := (zeroedHeader byteConfig).headerBytes ++ denseBuffer.bytes

/-- The header the decompressor reads from `denseFile`. -/
def denseHeader : IqzipCompressionHeader :=
  ((DecompressorImpl.construct (zeroStorage (Given U8))).dCcsdsCipHdr.parseBuffer
    (denseFile.take 18)).2

/-- It is shorter than a block. -/
theorem length_denseBuffer : denseBuffer.bytes.length = 1024 := List.length_replicate

/-- The header of `denseFile` is 14 bytes long. -/
theorem parse_denseFile :
    (DecompressorImpl.construct (zeroStorage (Given U8))).dCcsdsCipHdr.parseBuffer
      (denseFile.take 18) = (14, denseHeader) := Prod.ext (by decide) rfl

/-- The payload of `denseFile` is behind it. -/
theorem drop_denseFile : denseFile.drop 14 = denseBuffer.bytes := List.drop_left' (by decide)

/-- It is long enough for the parser. -/
theorem length_denseFile : 18 ≤ denseFile.length := by
  rw [denseFile, List.length_append, length_denseBuffer]
  omega

/-- The file session writes sixteen megabytes. -/
theorem decompressFile_denseFile : ∃ c, Returns
    (fun fuel => (DecompressorImpl.construct (zeroStorage _)).decompressFile
      (.ofFunctions expand expand) fuel (fun _ => 0) (FileSystem.empty.put "in.iqz" denseFile)
      "in.iqz" "out")
    (.ok (0, c, (FileSystem.empty.put "in.iqz" denseFile).put "out"
      (expand denseBuffer.bytes))) := by
  have hchunk := chunk_eq
  have htotal : (expand (denseFile.drop 14)).length < 2 ^ 31 := by
    rw [drop_denseFile, length_expand, length_denseBuffer]
    decide
  obtain ⟨status, c, hrun, hzero⟩ := @decompressFile_paced (Given U8) (.ofFunctions expand expand)
    (DecompressorImpl.construct (zeroStorage _)) (FileSystem.empty.put "in.iqz" denseFile) "in.iqz"
    "out" denseFile 14 denseHeader Given.start 1 expand (fun _ => 0) rfl rfl
    (FileSystem.content_put_self ..) length_denseFile (by decide) rfl parse_denseFile rfl
    (Coder.eager_paced expand_mono) Nat.one_pos (by omega) (Coder.eager_accepts _ _) htotal
  obtain rfl := hzero fun _ => rfl
  rw [drop_denseFile] at hrun
  exact ⟨c, hrun⟩

/-- The streaming session writes what one call of the decoder has room for. -/
theorem streamDecompressSession_denseFile : ∃ c,
    (DecompressorImpl.construct (zeroStorage _)).streamDecompressSession
      (.ofFunctions expand expand) (FileSystem.empty.put "in.iqz" denseFile) "in.iqz" "out"
      [denseBuffer]
    = .ok (0, c, (FileSystem.empty.put "in.iqz" denseFile).put "out"
        ((expand denseBuffer.bytes).take chunk)) := by
  have hshort : ((Rechunker.start (Given.start : Given U8) : Rechunker _ U8 U8).carry
      ++ denseBuffer.bytes).length < streamChunk := by
    rw [Rechunker.start, List.nil_append, length_denseBuffer]
    decide
  -- the payload is shorter than a block, so all of it waits for the last call
  have hpush : (Rechunker.start Given.start).push (Coder.eager expand expand) streamChunk chunk
      denseBuffer.bytes
      = (0, { state := Given.start, carry := denseBuffer.bytes, written := [] }) :=
    Rechunker.push_of_lt hshort
  have hgood : (Rechunker.start Given.start).PushesOk (Coder.eager expand expand) streamChunk chunk
      ([denseBuffer].map InBuf.bytes) := ⟨congrArg Prod.fst hpush, trivial⟩
  have hall : (Rechunker.start Given.start).pushes (Coder.eager expand expand) streamChunk chunk
      ([denseBuffer].map InBuf.bytes)
      = { state := Given.start, carry := denseBuffer.bytes, written := [] } := by
    rw [List.map_cons, List.map_nil, Rechunker.pushes, List.foldl_cons, List.foldl_nil, hpush]
  have hmade : ((Coder.eager expand expand).call Given.start .noFlush denseBuffer.bytes
      chunk).produced = (expand denseBuffer.bytes).take chunk := by
    simp only [Coder.eager, Given.start, List.nil_append, List.drop_zero]
  have hrun := @DecompressorImpl.streamDecompressSession_eq (Given U8) (.ofFunctions expand expand)
    (DecompressorImpl.construct (zeroStorage _)) (FileSystem.empty.put "in.iqz" denseFile) "in.iqz"
    "out" denseFile 14 denseHeader Given.start [denseBuffer]
    { state := Given.start, carry := denseBuffer.bytes, written := [] } rfl rfl
    (FileSystem.content_put_self ..) length_denseFile rfl rfl rfl (Nat.le_refl _) rfl
    parse_denseFile rfl hgood hall rfl rfl
  rwa [show (Aec.ofFunctions expand expand).coder = Coder.eager expand expand from rfl,
    hmade] at hrun

/-- **Pending output is abandoned.** The decoder keeps to its pace, and yet the streaming session
writes less than the file session. -/
theorem decompress_disagree :
    (Coder.eager expand expand).Paced chunk Given.start denseBuffer.bytes 1
        (aecParamsOf denseHeader.decodedConfig).bytesPerSample expand
      ∧ ∃ whole part,
        (∃ c fs', Returns (fun fuel => (DecompressorImpl.construct (zeroStorage _)).decompressFile
            (.ofFunctions expand expand) fuel (fun _ => 0)
            (FileSystem.empty.put "in.iqz" denseFile) "in.iqz" "out") (.ok (0, c, fs'))
          ∧ fs'.content "out" = some whole)
        ∧ (∃ c fs', (DecompressorImpl.construct (zeroStorage _)).streamDecompressSession
            (.ofFunctions expand expand) (FileSystem.empty.put "in.iqz" denseFile) "in.iqz" "out"
            [denseBuffer] = .ok (0, c, fs') ∧ fs'.content "out" = some part)
        ∧ part.length < whole.length := by
  have hwidth : (aecParamsOf denseHeader.decodedConfig).bytesPerSample = 1 := by decide
  obtain ⟨c, hfile⟩ := decompressFile_denseFile
  obtain ⟨c', hstream⟩ := streamDecompressSession_denseFile
  refine ⟨by rw [hwidth]; exact Coder.eager_paced expand_mono, _, _,
    ⟨c, _, hfile, FileSystem.content_put_self ..⟩,
    ⟨c', _, hstream, FileSystem.content_put_self ..⟩, ?_⟩
  have hchunk := chunk_eq
  rw [List.length_take, length_expand, length_denseBuffer]
  omega

/-- A file with less of the dense payload, of which one call makes just what it has space for. -/
def fullFile : List U8 := (zeroedHeader byteConfig).headerBytes ++ List.replicate 640 0

/-- The header the decompressor reads from `fullFile`. -/
def fullHeader : IqzipCompressionHeader :=
  ((IqzipCompressionHeader.default HeaderStorage.zero).parseBuffer (fullFile.take 18)).2

/-- It is long enough as well. -/
theorem length_fullFile : 18 ≤ fullFile.length := by
  rw [fullFile, List.length_append, List.length_replicate]
  omega

/-- The expansion of a payload is an output. -/
theorem expand_emits : Emits 1 expand where
  mono := expand_mono
  nil := rfl
  dvd _ := Nat.one_dvd _

/-- A payload shorter than a block keeps pace as long as one call has space for all of it. -/
theorem expand_inPace_iff {n : Nat} (hn : n < streamChunk) (x : U8) :
    KeepsPace expand streamChunk chunk (List.replicate n x) ↔ n * 16384 ≤ chunk := by
  have hzero : n / streamChunk = 0 := Nat.div_eq_of_lt hn
  have hall : (expand (List.replicate n x)).length = n * 16384 := by
    rw [length_expand, List.length_replicate]
  constructor
  · intro keeps
    have hmakes := keeps.makes
    rwa [hall, List.length_replicate, hzero, leastMade, Nat.zero_add] at hmakes
  · intro hle
    constructor
    · intro i hi
      rw [List.length_replicate] at hi
      have hnone : i = 0 := by
        by_contra hpos
        have := Nat.le_mul_of_pos_left streamChunk (Nat.pos_of_ne_zero hpos)
        omega
      subst hnone
      rw [length_expand, List.length_dropLast, List.length_take, List.length_replicate, leastMade]
      omega
    · rw [hall, List.length_replicate, hzero, leastMade, Nat.zero_add]
      exact hle

/-- 640 bytes of the dense payload keep pace, 1024 bytes do not. -/
theorem decompress_agree_expand :
    DecompressorsAgree .zero (fun _ => 0) (FileSystem.empty.put "in.iqz" fullFile) "in.iqz" "out"
        (aecParamsOf fullHeader.decodedConfig) (fullFile.drop 14) 1 expand
      ∧ ¬ DecompressorsAgree .zero (fun _ => 0) (FileSystem.empty.put "in.iqz" denseFile) "in.iqz"
        "out" (aecParamsOf denseHeader.decodedConfig) (denseFile.drop 14) 1 expand := by
  have hstop : stopAt chunk 1 1 = chunk := by decide
  constructor
  · have hwidth : (aecParamsOf fullHeader.decodedConfig).bytesPerSample = 1 := by decide
    have hparse : (IqzipCompressionHeader.default HeaderStorage.zero).parseBuffer
        (fullFile.take 18) = (14, fullHeader) := Prod.ext (by decide) rfl
    have hpayload : fullFile.drop 14 = List.replicate 640 0 := List.drop_left' (by decide)
    have htotal : (expand (fullFile.drop 14)).length < 2 ^ 31 := by
      rw [hpayload, length_expand, List.length_replicate]
      decide
    refine (decompress_agree_iff (fun _ => 0) (FileSystem.content_put_self ..) length_fullFile
      (by decide) rfl hparse expand_emits Nat.one_pos hwidth.ge htotal).mpr ?_
    rw [hpayload, DecodesInPace, hwidth, hstop, expand_inPace_iff (by decide)]
    decide
  · have hwidth : (aecParamsOf denseHeader.decodedConfig).bytesPerSample = 1 := by decide
    have hparse : (IqzipCompressionHeader.default HeaderStorage.zero).parseBuffer
        (denseFile.take 18) = (14, denseHeader) := parse_denseFile
    have htotal : (expand (denseFile.drop 14)).length < 2 ^ 31 := by
      rw [drop_denseFile, length_expand, length_denseBuffer]
      decide
    rw [decompress_agree_iff (fun _ => 0) (FileSystem.content_put_self ..) length_denseFile
      (by decide) rfl hparse expand_emits Nat.one_pos hwidth.ge htotal, drop_denseFile,
      DecodesInPace, hwidth, hstop, denseBuffer, expand_inPace_iff (by decide)]
    decide

end IQzip
