import IQzip.Lossless
import IQzip.Recovery

/-! # Every way in and every way out

A caller compresses from a file or from buffers, and decompresses from a file or from buffers. With
libaec as a coder for which the cuts play no role, all ways lead to one archive and from it to one
output, and `modes_roundTrip` says when that is the input. -/

namespace IQzip

open Library IqzipCompressionHeader

variable {σ τ : Type}

/-- How the bytes are passed; `cell` is what the memory of the output buffer holds. -/
inductive Mode
  | file (cell : Nat → U8)
  | stream (bufs : List InBuf)

/-- The buffers hold these bytes. -/
def Mode.Passes : Mode → List U8 → Prop
  | .file _, _ => True
  | .stream bufs, xs => (bufs.map InBuf.bytes).flatten = xs

/-- A new compressor returns 0 and leaves these files. The streaming functions do not read `fin`. -/
def compressBy (api : Aec σ) (storage : ObjectStorage σ) (cfg : Config) (fs : FileSystem)
    (fin fout : String) : Mode → FileSystem → Prop
  | .file cell, fs' => ∃ c, Returns (fun fuel =>
      (CompressorImpl.construct storage cfg).compressFile api fuel cell fs fin fout)
      (.ok (0, c, fs'))
  | .stream bufs, fs' => ∃ c,
      (CompressorImpl.construct storage cfg).streamCompressSession api fs fout bufs
        = .ok (0, c, fs')

/-- A new decompressor returns 0 and leaves these files. The streaming functions read the header of
`fin` and the payload from the buffers. -/
def decompressBy (api : Aec τ) (storage : ObjectStorage τ) (fs : FileSystem)
    (fin fout : String) : Mode → FileSystem → Prop
  | .file cell, fs' => ∃ c, Returns (fun fuel =>
      (DecompressorImpl.construct storage).decompressFile api fuel cell fs fin fout)
      (.ok (0, c, fs'))
  | .stream bufs, fs' => ∃ c,
      (DecompressorImpl.construct storage).streamDecompressSession api fs fin fout bufs
        = .ok (0, c, fs')

section Compress

variable {api : Aec σ} {storage : ObjectStorage σ} {cfg : Config} {fs : FileSystem}
  {fin fout : String} {input : List U8} {s₀ : σ} {feed : σ → List U8 → σ × List U8}
  {finish : σ → List U8}

/-- **Every way in** leads to the header and one feed of the input. -/
theorem compressBy_feeds (hfile : fs.content fin = some input) (hne : fin ≠ fout)
    (hw : fs.writable fout = true) (hres : 1 ≤ cfg.sampleResolution)
    (hinit : api.init (aecParamsOf cfg) = (aecOk, some s₀))
    (feeds : api.coder.Feeds chunk s₀ input feed finish) (hfin : ∀ s, api.fin s = aecOk)
    (htotal : (codedBy feed finish s₀ input).length < 2 ^ 31) {m : Mode} (hm : m.Passes input) :
    compressBy api storage cfg fs fin fout m (fs.put fout
      ((construct storage.header cfg).headerBytes ++ codedBy feed finish s₀ input)) := by
  cases m with
  | file cell =>
    exact @compressFile_feeds _ _ _ _ _ _ _ _ _
      (CompressorImpl.construct storage cfg).toIqzipImpl cell hinit feeds hfin htotal rfl rfl hfile
      hne hw
  | stream bufs =>
    have htmp : streamChunk ≤ (CompressorImpl.construct storage cfg).dTmpStream.size :=
      Nat.le_mul_of_pos_left _ (by bv_omega)
    exact streamCompressSession_feeds hinit feeds hfin rfl hw rfl rfl htmp rfl hm

end Compress

section Decompress

variable {api : Aec τ} {storage : ObjectStorage τ} {fs : FileSystem} {fin fout : String}
  {bytes payload : List U8} {size : Nat} {hdr : IqzipCompressionHeader} {p : AecParams} {t₀ : τ}
  {decode : List U8 → List U8}

/-- **Every way out** leads to what the decoder determines. -/
theorem decompressBy_decodes (hfile : fs.content fin = some bytes) (hlen : 18 ≤ bytes.length)
    (hne : fin ≠ fout) (hw : fs.writable fout = true)
    (hparse : (DecompressorImpl.construct storage).dCcsdsCipHdr.parseBuffer (bytes.take 18)
      = (size, hdr))
    (hparams : aecParamsOf hdr.decodedConfig = p) (hpayload : bytes.drop size = payload)
    (hinit : api.init p = (aecOk, some t₀))
    (decodes : Decodes api t₀ payload p.bytesPerSample decode) (hfin : ∀ s, api.fin s = aecOk)
    (htotal : (decode payload).length < 2 ^ 31) {g : Nat}
    (grouped : api.coder.Grouped chunk t₀ payload g) (keeps : DecodesInPace g p decode payload)
    {m : Mode} (hm : m.Passes payload) :
    decompressBy api storage fs fin fout m (fs.put fout (decode payload)) := by
  subst hparams hpayload
  have hpos := (aecParamsOf hdr.decodedConfig).bytesPerSample_bounds.1
  have hwidth := (aecParamsOf hdr.decodedConfig).bytesPerSample_le
  cases m with
  | file cell =>
    obtain ⟨status, c, hrun, hzero⟩ := decompressFile_paced cell rfl rfl hfile hlen hne hw hparse
      (congrArg Prod.snd hinit) decodes.paced hpos hwidth decodes.accepts htotal
    obtain rfl := hzero hfin
    exact ⟨c, hrun⟩
  | stream bufs =>
    exact streamDecompressSession_paced rfl rfl hfile hlen hw rfl rfl (Nat.le_refl _) rfl hparse
      (congrArg Prod.snd hinit) decodes.paced grouped decodes.accepts hfin keeps hm

end Decompress

/-! ## The round trip -/

/-- **All ways in and out agree.** For a legal configuration that comes back in front of its
payload, over header memory that starts as zeros, with libaec as an encoder that feeds and as a
paced decoder, a payload that keeps pace, and less than `2^31` bytes on either side: from one input
all ways in leave the same files, from these all ways out leave the same files, every session
returning 0, and the input is in the last one exactly when it is a multiple of the block size. -/
theorem modes_roundTrip {enc : Aec σ} {dec : Aec τ} {storage : ObjectStorage σ}
    {storage' : ObjectStorage τ} {cfg : Config} {fs : FileSystem} {fin fmid fout : String}
    {input coded : List U8} {s₀ : σ} {t₀ : τ} {feed : σ → List U8 → σ × List U8}
    {finish : σ → List U8} {decode : List U8 → List U8}
    (legal : cfg.Legal) (hzero : storage.header = .zero) (recoverable : Recoverable cfg coded)
    (hfile : fs.content fin = some input) (hmid : fin ≠ fmid) (hout : fmid ≠ fout)
    (hw : fs.writable fmid = true) (hw' : fs.writable fout = true)
    (hinit : enc.init (aecParamsOf cfg) = (aecOk, some s₀))
    (feeds : enc.coder.Feeds chunk s₀ input feed finish) (hfin : ∀ s, enc.fin s = aecOk)
    (hcoded : codedBy feed finish s₀ input = coded) (htotal : coded.length < 2 ^ 31)
    (hlen : 18 ≤ ((zeroedHeader cfg).headerBytes ++ coded).length)
    (hinit' : dec.init (aecParamsOf cfg) = (aecOk, some t₀))
    (decodes : Decodes dec t₀ coded (aecParamsOf cfg).bytesPerSample decode)
    (hfin' : ∀ t, dec.fin t = aecOk) (htotal' : (decode coded).length < 2 ^ 31)
    {g : Nat} (grouped : dec.coder.Grouped chunk t₀ coded g)
    (keeps : DecodesInPace g (aecParamsOf cfg) decode coded)
    (padded : PaddedTo cfg.blockSize.toNat (aecParamsOf cfg).bytesPerSample input (decode coded)) :
    ∃ fs' fs'', (∀ m : Mode, m.Passes input → compressBy enc storage cfg fs fin fmid m fs')
      ∧ (∀ m : Mode, m.Passes coded → decompressBy dec storage' fs' fmid fout m fs'')
      ∧ (fs''.content fout = some input
        ↔ cfg.blockSize.toNat ∣ input.length / (aecParamsOf cfg).bytesPerSample) := by
  have hsame : construct storage.header cfg = zeroedHeader cfg := by rw [hzero, zeroedHeader]
  -- the parser stops at the payload, with the parameters of the encoder
  obtain ⟨hstop, hparams⟩ := (parsed_recovers_iff legal
    (DecompressorImpl.construct storage').dCcsdsCipHdr coded).mpr recoverable
  refine ⟨fs.put fmid ((zeroedHeader cfg).headerBytes ++ coded),
    (fs.put fmid ((zeroedHeader cfg).headerBytes ++ coded)).put fout (decode coded), ?_, ?_, ?_⟩
  · intro m hm
    rw [← hsame, ← hcoded]
    rw [← hcoded] at htotal
    exact compressBy_feeds hfile hmid hw legal.sampleResolution.1 hinit feeds hfin htotal hm
  · intro m hm
    exact decompressBy_decodes (FileSystem.content_put_self ..) hlen hout hw'
      (Prod.ext hstop rfl) hparams List.drop_left hinit' decodes hfin' htotal' grouped keeps hm
  · rw [FileSystem.content_put_self, Option.some.injEq]
    exact padded.eq_self_iff (aecParamsOf cfg).bytesPerSample_bounds.1

/-- One block, in and out in every way. -/
theorem modes_roundTrip_eightSamples :
    ∃ fs' fs'',
      (∀ m : Mode, m.Passes eightSamples → compressBy eightSamplesEncoder (zeroStorage _) byteConfig
        (FileSystem.empty.put "in" eightSamples) "in" "in.iqz" m fs')
      ∧ (∀ m : Mode, m.Passes eightSamplesCoded → decompressBy
        (.ofFunctions eightSamplesDecode eightSamplesDecode) (zeroStorage _) fs' "in.iqz" "out" m
        fs'')
      ∧ fs''.content "out" = some eightSamples := by
  have hwidth : (aecParamsOf byteConfig).bytesPerSample = 1 := by decide
  have hdecodes := decodes_one eightSamplesCoded eightSamples eightSamplesCoded
  have grouped : (Coder.eager eightSamplesDecode eightSamplesDecode).Grouped chunk Given.start
      eightSamplesCoded 1 := fun _ _ _ _ => Nat.one_dvd _
  have keeps := eightSamplesDecode_inPace (aecParamsOf byteConfig) eightSamplesCoded
  have hpadded : PaddedTo 8 1 eightSamples (eightSamplesDecode eightSamplesCoded) :=
    ⟨0, by decide, by decide, nofun⟩
  rw [← hwidth] at hdecodes hpadded
  have recoverable : Recoverable byteConfig eightSamplesCoded :=
    ⟨⟨3, by decide, by decide, by decide⟩, by decide, rfl, by decide⟩
  obtain ⟨fs', fs'', hins, houts, hback⟩ := @modes_roundTrip _ _ _ _ (zeroStorage _)
    (zeroStorage _) _ _ _ _ _ _ _ _ _ _ _ _ (show byteConfig.Legal by decide) rfl recoverable
    (FileSystem.content_put_self .empty "in" eightSamples)
    (show "in" ≠ "in.iqz" by decide) (show "in.iqz" ≠ "out" by decide) rfl rfl rfl
    eightSamplesEncoder_feeds (fun _ => rfl) rfl (by decide) (by decide) rfl hdecodes
    (fun _ => rfl) (by decide) 1 grouped keeps hpadded
  refine ⟨fs', fs'', hins, houts, hback.mpr ?_⟩
  rw [hwidth]
  decide

end IQzip
