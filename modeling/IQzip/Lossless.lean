import IQzip.StreamDecode

/-! # Lossless compression

A file is compressed by one new object and decompressed by another. libaec is taken by its word:
what it decodes is what was encoded, with the last sample repeated up to a whole block. Nothing in
the file says how many of those samples are real, so the input comes back only when none was
repeated. `restores_iff` is the exact condition, with three more ways to fail: a loop that does not
end, a count past `2^31`, and a flush that does not fit in one call. -/

namespace IQzip

open Library IqzipCompressionHeader

variable {σ τ : Type}

/-! ## Padding -/

/-- `ys` is `xs` with its last sample, of `width` bytes, repeated up to the next multiple of
`blockSize` samples. -/
def PaddedTo (blockSize width : Nat) (xs ys : List U8) : Prop :=
  ∃ k, ys = xs ++ (List.replicate k (xs.drop (xs.length - width))).flatten
    ∧ blockSize ∣ xs.length / width + k ∧ ∀ j < k, ¬ blockSize ∣ xs.length / width + j

/-- **Nothing is repeated exactly at a multiple of the block size.** -/
theorem PaddedTo.eq_self_iff {blockSize width : Nat} {xs ys : List U8}
    (h : PaddedTo blockSize width xs ys) (hpos : 0 < width) :
    ys = xs ↔ blockSize ∣ xs.length / width := by
  obtain ⟨k, rfl, hmultiple, hleast⟩ := h
  constructor
  · intro hself
    have hnil := List.append_right_eq_self.mp hself
    rcases Nat.eq_zero_or_pos k with rfl | hk
    · exact hmultiple
    · -- a repeated sample without bytes is one of an empty input
      have hlast : xs.drop (xs.length - width) = [] :=
        List.flatten_eq_nil_iff.mp hnil _ (List.mem_replicate.mpr ⟨by omega, rfl⟩)
      have hempty : xs.length = 0 := by
        have := List.drop_eq_nil_iff.mp hlast
        omega
      rw [hempty, Nat.zero_div]
      exact Nat.dvd_zero blockSize
  · intro hblocks
    obtain rfl : k = 0 := by
      by_contra hk
      exact hleast 0 (by omega) hblocks
    rw [List.replicate_zero, List.flatten_nil, List.append_nil]

/-! ## Samples and chunks -/

/-- A chunk is whole samples, except for samples of three bytes. -/
theorem bytesPerSample_fits_iff (p : AecParams) (n : Nat) :
    (p.bytesPerSample ∣ chunk ∨ n < chunk) ↔ ¬ (p.bytesPerSample = 3 ∧ chunk ≤ n) := by
  have hthree : ¬ 3 ∣ chunk := by decide
  have hone : 1 ∣ chunk := Nat.one_dvd _
  have htwo : 2 ∣ chunk := by decide
  have hfour : 4 ∣ chunk := by decide
  -- `CHUNK` is `10 * 2^20`: of the four widths only 3 does not divide it
  unfold AecParams.bytesPerSample
  split_ifs
  · simp
  · simp [htwo]
  · simp [hthree]
  · simp [hfour]

/-! ## The two sessions -/

/-- **libaec's encoder on an input.** It takes whole samples, and before the flush it has made
`early` of what it has taken. The flushing call at the end of the input goes on with `coded` as far
as there is space. -/
structure Encodes (api : Aec σ) (s₀ : σ) (input : List U8) (width : Nat)
    (early : List U8 → List U8) (coded : List U8) : Prop where
  paced : api.coder.Paced chunk s₀ input width 1 early
  accepts : api.coder.Accepts chunk s₀ input
  flush : ∀ ⦃s⦄, api.coder.Reaches chunk s₀ input s input (early input) →
    (api.coder.call s .flush [] chunk).status = 0
      ∧ early input ++ (api.coder.call s .flush [] chunk).produced
        = coded.take ((early input).length + chunk)

/-- **libaec's decoder on a payload.** A call makes all that `decode` makes of what it has taken, or
leaves less space than a sample needs. -/
structure Decodes (api : Aec σ) (s₀ : σ) (payload : List U8) (width : Nat)
    (decode : List U8 → List U8) : Prop where
  paced : api.coder.Paced chunk s₀ payload 1 width decode
  accepts : api.coder.Accepts chunk s₀ payload

section Sessions

variable {fs fs' : FileSystem} {fin fout : String} {width : Nat}

/-- **What a file session of the compressor writes**, and when it returns. -/
theorem compressFile_iff {api : Aec σ} {c : IqzipImpl σ} {s₀ : σ} {input coded : List U8}
    {early : List U8 → List U8} (cell : Nat → U8) (hin : c.inputStream = .closed)
    (hout : c.outputStream = .closed) (hfile : fs.content fin = some input) (hne : fin ≠ fout)
    (hw : fs.writable fout = true) (hinit : (api.init (aecParamsOf c.config)).2 = some s₀)
    (encodes : Encodes api s₀ input width early coded) (hdvd : width ∣ input.length) :
    (∃ status c', Returns (fun fuel => c.compressFile api fuel cell fs fin fout)
        (.ok (status, c', fs')))
      ↔ (width ∣ chunk ∨ input.length < chunk) ∧ (early input).length < 2 ^ 31
        ∧ fs' = fs.put fout (c.dCcsdsCipHdr.headerBytes
          ++ coded.take ((early input).length + chunk)) := by
  have hone : 1 ≤ chunk := by decide
  -- every exit of the pump is the one exit of the session
  have hreturns : ∀ {q}, Exits (Pump.step api.coder chunk) (Pump.start s₀ input) (0, q) →
      (early input).length < 2 ^ 31 → ∃ status c',
        Returns (fun fuel => c.compressFile api fuel cell fs fin fout)
          (.ok (status, c', fs.put fout (c.dCcsdsCipHdr.headerBytes
            ++ coded.take ((early input).length + chunk)))) := by
    intro q hexit hsmall
    obtain ⟨-, hpending, hwritten, hreach⟩ := Pump.exits_inv encodes.paced Nat.one_pos hone
      encodes.accepts hdvd hexit
    rw [hwritten] at hreach
    obtain ⟨hok, hmade⟩ := encodes.flush hreach
    have hbelow : ∀ q, Loops (Pump.step api.coder chunk) (Pump.start s₀ input) q →
        q.written.length < 2 ^ 31 := fun q hq =>
      Nat.lt_of_le_of_lt (Pump.length_written_le encodes.paced hq) hsmall
    obtain ⟨status, c', hrun, -⟩ := IqzipImpl.compressFile_returns cell hin hout hfile hne hw hinit
      hbelow hexit (by rwa [hpending])
    rw [hpending, hwritten, hmade] at hrun
    exact ⟨status, c', hrun⟩
  constructor
  · rintro ⟨status, c', hrun⟩
    obtain ⟨q, hexit, hsmall⟩ := IqzipImpl.compressFile_inv hin hout hfile hne hw hinit
      encodes.accepts hrun
    obtain ⟨hfit, -, hwritten, -⟩ := Pump.exits_inv encodes.paced Nat.one_pos hone encodes.accepts
      hdvd hexit
    rw [hwritten] at hsmall
    obtain ⟨status', c'', hrun'⟩ := hreturns hexit hsmall
    cases hrun.unique hrun'
    exact ⟨hfit, hsmall, rfl⟩
  · rintro ⟨hfit, hsmall, rfl⟩
    obtain ⟨q, hexit, -⟩ := Pump.exists_exits_emit encodes.paced Nat.one_pos hone encodes.accepts
      hdvd hfit
    exact hreturns hexit hsmall

/-- **What a file session of the decompressor writes**, and when it returns. -/
theorem decompressFile_iff {api : Aec σ} {c : DecompressorImpl σ} {s₀ : σ} {bytes : List U8}
    {size : Nat} {hdr : IqzipCompressionHeader} {decode : List U8 → List U8} (cell : Nat → U8)
    (hin : c.inputStream = .closed) (hout : c.outputStream = .closed)
    (hfile : fs.content fin = some bytes)
    (hlen : IqzipCompressionHeader.maxHeaderSize ≤ bytes.length) (hne : fin ≠ fout)
    (hw : fs.writable fout = true)
    (hparse : c.dCcsdsCipHdr.parseBuffer (bytes.take IqzipCompressionHeader.maxHeaderSize)
      = (size, hdr))
    (hinit : (api.init (aecParamsOf hdr.decodedConfig)).2 = some s₀)
    (decodes : Decodes api s₀ (bytes.drop size) width decode) (hpos : 0 < width)
    (hwidth : width ≤ chunk) :
    (∃ status c', Returns (fun fuel => c.decompressFile api fuel cell fs fin fout)
        (.ok (status, c', fs')))
      ↔ (decode (bytes.drop size)).length < 2 ^ 31
        ∧ fs' = fs.put fout (decode (bytes.drop size)) := by
  have hreturns : (decode (bytes.drop size)).length < 2 ^ 31 → ∃ status c',
      Returns (fun fuel => c.decompressFile api fuel cell fs fin fout)
        (.ok (status, c', fs.put fout (decode (bytes.drop size)))) := by
    intro hsmall
    obtain ⟨status, c', hrun, -⟩ := decompressFile_paced cell hin hout hfile hlen hne hw hparse
      hinit decodes.paced hpos hwidth decodes.accepts hsmall
    exact ⟨status, c', hrun⟩
  constructor
  · rintro ⟨status, c', hrun⟩
    obtain ⟨q, hexit, hsmall⟩ := DecompressorImpl.decompressFile_inv hin hout hfile hlen hne hw
      hparse hinit decodes.accepts hrun
    obtain ⟨-, -, hwritten, -⟩ := Pump.exits_inv decodes.paced hpos hwidth decodes.accepts
      (Nat.one_dvd _) hexit
    rw [hwritten] at hsmall
    obtain ⟨status', c'', hrun'⟩ := hreturns hsmall
    cases hrun.unique hrun'
    exact ⟨hsmall, rfl⟩
  · rintro ⟨hsmall, rfl⟩
    exact hreturns hsmall

end Sessions

/-! ## The round trip -/

/-- **The input comes back**: compressing `fin` to `fmid` with one new object and decompressing that
to `fout` with another leaves the content of `fin` in `fout`. -/
def Restores (enc : Aec σ) (dec : Aec τ) (storage : ObjectStorage σ) (storage' : ObjectStorage τ)
    (cfg : Config) (cell cell' : Nat → U8) (fs : FileSystem) (fin fmid fout : String)
    (input : List U8) : Prop :=
  ∃ fs' fs'',
    (∃ status c, Returns (fun fuel =>
        (CompressorImpl.construct storage cfg).compressFile enc fuel cell fs fin fmid)
      (.ok (status, c, fs')))
    ∧ (∃ status c, Returns (fun fuel =>
        (DecompressorImpl.construct storage').decompressFile dec fuel cell' fs' fmid fout)
      (.ok (status, c, fs'')))
    ∧ fs''.content fout = some input

section RoundTrip

variable {enc : Aec σ} {dec : Aec τ} {storage : ObjectStorage σ} {storage' : ObjectStorage τ}
  {cfg : Config} {fs : FileSystem} {fin fmid fout : String} {input coded payload : List U8} {s₀ : σ}
  {t₀ : τ} {early decode : List U8 → List U8} {hdr : IqzipCompressionHeader}

/-- **What a round trip leaves** is what the decoder makes of the payload, when both loops end below
the bound. -/
theorem restores_iff_decode (cell cell' : Nat → U8) (hfile : fs.content fin = some input)
    (hmid : fin ≠ fmid) (hout : fmid ≠ fout) (hw : fs.writable fmid = true)
    (hw' : fs.writable fout = true)
    (hsamples : (aecParamsOf cfg).bytesPerSample ∣ input.length)
    (hinit : enc.init (aecParamsOf cfg) = (aecOk, some s₀))
    (hinit' : dec.init (aecParamsOf cfg) = (aecOk, some t₀))
    (encodes : Encodes enc s₀ input (aecParamsOf cfg).bytesPerSample early coded)
    (hpayload : payload = coded.take ((early input).length + chunk))
    (decodes : Decodes dec t₀ payload (aecParamsOf cfg).bytesPerSample decode)
    (hlen : 18 ≤ ((construct storage.header cfg).headerBytes ++ payload).length)
    (hparse : (DecompressorImpl.construct storage').dCcsdsCipHdr.parseBuffer
        (((construct storage.header cfg).headerBytes ++ payload).take 18)
      = ((construct storage.header cfg).headerBytes.length, hdr))
    (hparams : aecParamsOf hdr.decodedConfig = aecParamsOf cfg) :
    Restores enc dec storage storage' cfg cell cell' fs fin fmid fout input
      ↔ ¬ ((aecParamsOf cfg).bytesPerSample = 3 ∧ chunk ≤ input.length)
        ∧ input.length < 2 ^ 31 ∧ (early input).length < 2 ^ 31 ∧ decode payload = input := by
  have hwidth := (aecParamsOf cfg).bytesPerSample_bounds
  have hbound : (aecParamsOf cfg).bytesPerSample ≤ chunk := Nat.le_trans hwidth.2 (by decide)
  -- the file between the two sessions
  let bytes := (construct storage.header cfg).headerBytes ++ payload
  have hdrop : bytes.drop (construct storage.header cfg).headerBytes.length = payload :=
    List.drop_left
  have hcompress : ∀ fs', (∃ status c, Returns (fun fuel =>
        (CompressorImpl.construct storage cfg).compressFile enc fuel cell fs fin fmid)
      (.ok (status, c, fs'))) ↔ _ := fun fs' =>
    compressFile_iff cell rfl rfl hfile hmid hw (congrArg Prod.snd hinit) encodes hsamples
  have hdecompress : ∀ fs'', (∃ status c, Returns (fun fuel =>
        (DecompressorImpl.construct storage').decompressFile dec fuel cell' (fs.put fmid bytes)
          fmid fout) (.ok (status, c, fs''))) ↔ _ := fun fs'' =>
    decompressFile_iff cell' rfl rfl (FileSystem.content_put_self ..) hlen hout
      (by rwa [FileSystem.writable_put]) hparse (by rw [hparams, hinit'])
      (by rw [hdrop]; exact decodes) hwidth.1 hbound
  rw [← hpayload] at hcompress
  rw [hdrop] at hdecompress
  rw [← bytesPerSample_fits_iff]
  constructor
  · rintro ⟨fs', fs'', hmade, hread, hcontent⟩
    obtain ⟨hfit, hearly, rfl⟩ := (hcompress fs').mp hmade
    obtain ⟨hsmall, rfl⟩ := (hdecompress fs'').mp hread
    rw [FileSystem.content_put_self, Option.some.injEq] at hcontent
    rw [hcontent] at hsmall
    exact ⟨hfit, hsmall, hearly, hcontent⟩
  · rintro ⟨hfit, hsmall, hearly, hcontent⟩
    refine ⟨fs.put fmid bytes, (fs.put fmid bytes).put fout (decode payload),
      (hcompress _).mpr ⟨hfit, hearly, rfl⟩, (hdecompress _).mpr ⟨by rwa [hcontent], rfl⟩, ?_⟩
    rw [FileSystem.content_put_self, hcontent]

/-- **A harmless cut**: the code does not fit in the space of the flushing call, and the part of it
that does decodes to the input. -/
def CutHarmlessly (input coded payload : List U8) (early decode : List U8 → List U8) : Prop :=
  (early input).length + chunk < coded.length ∧ decode payload = input

/-- The payload decodes to the input exactly when the code is neither padded nor cut off, or cut
harmlessly. -/
theorem PaddedTo.decode_eq_iff {blockSize width : Nat}
    (padded : PaddedTo blockSize width input (decode coded)) (hpos : 0 < width)
    (hpayload : payload = coded.take ((early input).length + chunk)) :
    decode payload = input
      ↔ coded.length ≤ (early input).length + chunk ∧ blockSize ∣ input.length / width
        ∨ CutHarmlessly input coded payload early decode := by
  unfold CutHarmlessly
  -- either the whole code is in the file, or its end is missing
  by_cases hroom : coded.length ≤ (early input).length + chunk
  · rw [List.take_of_length_le hroom] at hpayload
    rw [hpayload, padded.eq_self_iff hpos]
    simp [hroom, Nat.not_lt.mpr hroom]
  · simp [hroom, Nat.lt_of_not_le hroom]

/-- **The input comes back exactly when nothing was added and nothing it needs is cut off.** New
objects, an input of whole samples, a compressed file of at least 18 bytes from which the
decompressor recovers the header size and the coder parameters, and libaec as an encoder and a
decoder with equal parameters, which decodes the code to the input and its padding. The input comes
back exactly when

* it fits in a chunk, if its samples take three bytes,
* it has fewer than `2^31` bytes, and so has what the encoder makes before the flush, and
* it is a multiple of the block size and its code fits in the space of the flushing call, or the
  code is cut harmlessly. -/
theorem restores_iff (cell cell' : Nat → U8) (hfile : fs.content fin = some input)
    (hmid : fin ≠ fmid) (hout : fmid ≠ fout) (hw : fs.writable fmid = true)
    (hw' : fs.writable fout = true)
    (hsamples : (aecParamsOf cfg).bytesPerSample ∣ input.length)
    (hinit : enc.init (aecParamsOf cfg) = (aecOk, some s₀))
    (hinit' : dec.init (aecParamsOf cfg) = (aecOk, some t₀))
    (encodes : Encodes enc s₀ input (aecParamsOf cfg).bytesPerSample early coded)
    (hpayload : payload = coded.take ((early input).length + chunk))
    (decodes : Decodes dec t₀ payload (aecParamsOf cfg).bytesPerSample decode)
    (padded : PaddedTo cfg.blockSize.toNat (aecParamsOf cfg).bytesPerSample input (decode coded))
    (hlen : 18 ≤ ((construct storage.header cfg).headerBytes ++ payload).length)
    (hparse : (DecompressorImpl.construct storage').dCcsdsCipHdr.parseBuffer
        (((construct storage.header cfg).headerBytes ++ payload).take 18)
      = ((construct storage.header cfg).headerBytes.length, hdr))
    (hparams : aecParamsOf hdr.decodedConfig = aecParamsOf cfg) :
    Restores enc dec storage storage' cfg cell cell' fs fin fmid fout input
      ↔ ¬ ((aecParamsOf cfg).bytesPerSample = 3 ∧ chunk ≤ input.length)
        ∧ input.length < 2 ^ 31 ∧ (early input).length < 2 ^ 31
        ∧ (coded.length ≤ (early input).length + chunk
            ∧ cfg.blockSize.toNat ∣ input.length / (aecParamsOf cfg).bytesPerSample
          ∨ CutHarmlessly input coded payload early decode) := by
  rw [← padded.decode_eq_iff (aecParamsOf cfg).bytesPerSample_bounds.1 hpayload]
  exact restores_iff_decode cell cell' hfile hmid hout hw hw' hsamples hinit hinit' encodes hpayload
    decodes hlen hparse hparams

end RoundTrip

/-! ## Eight samples and seven -/

/-- An encoder that makes everything at the flush, on a short input. -/
theorem encodes_atFlush {code : List U8 → List U8} {input : List U8}
    (hfit : (code input).length ≤ chunk) :
    Encodes (.ofFunctions (fun _ => []) code) Given.start input 1 (fun _ => []) (code input) where
  paced := show (Coder.eager (fun _ => []) code).Paced .. from
    Coder.eager_paced fun _ _ _ => List.nil_prefix
  accepts := Coder.eager_accepts (fun _ => []) code
  flush := by
    intro s hs
    have hflush := @Coder.eager_flush _ _ (fun _ => []) code chunk input input [] s hs []
      List.nil_prefix (by rw [List.append_nil, List.length_nil, Nat.zero_add]; exact hfit)
    refine ⟨rfl, ?_⟩
    rw [List.append_nil] at hflush
    rw [List.length_nil, Nat.zero_add, List.take_of_length_le hfit]
    exact hflush

/-- The decoder of one code. -/
theorem decodes_one (coded samples payload : List U8) :
    Decodes (.ofFunctions (decodeOne coded samples) (decodeOne coded samples)) Given.start payload 1
      (decodeOne coded samples) where
  paced := Coder.eager_paced (decodeOne_mono _ _)
  accepts := Coder.eager_accepts _ _

/-- The header of a new compressor for bytes. -/
abbrev byteHeader : IqzipCompressionHeader := construct (zeroStorage (Given U8)).header byteConfig

/-- A whole block comes back. -/
theorem restores_eightSamples :
    Restores eightSamplesEncoder (.ofFunctions eightSamplesDecode eightSamplesDecode)
      (zeroStorage _) (zeroStorage _) byteConfig (fun _ => 0) (fun _ => 0)
      (FileSystem.empty.put "in" eightSamples) "in" "in.iqz" "out" eightSamples := by
  have hwidth : (aecParamsOf byteConfig).bytesPerSample = 1 := by decide
  have hencodes := @encodes_atFlush eightSamplesCode eightSamples (by decide)
  have hdecodes := decodes_one eightSamplesCoded eightSamples eightSamplesCoded
  have hpadded : PaddedTo 8 1 eightSamples (eightSamplesDecode eightSamplesCoded) :=
    ⟨0, by decide, by decide, nofun⟩
  have hpayload : eightSamplesCoded = (eightSamplesCode eightSamples).take (0 + chunk) := by decide
  have hlen : 18 ≤ (byteHeader.headerBytes ++ eightSamplesCoded).length := by decide
  have hparse : (DecompressorImpl.construct (zeroStorage (Given U8))).dCcsdsCipHdr.parseBuffer
      ((byteHeader.headerBytes ++ eightSamplesCoded).take 18)
      = (byteHeader.headerBytes.length, eightSamplesHeader) :=
    Prod.ext (by decide) rfl
  rw [← hwidth] at hencodes hdecodes hpadded
  refine (restores_iff _ _ (FileSystem.content_put_self ..) (by decide) (by decide) rfl rfl
    (by rw [hwidth]; exact Nat.one_dvd _) rfl rfl hencodes hpayload hdecodes hpadded hlen hparse
    (by decide)).mpr ?_
  rw [hwidth]
  exact ⟨by decide, by decide, by decide, Or.inl ⟨by decide, by decide⟩⟩

/-- The first seven of them. -/
def sevenSamples : List U8 := [0x00, 0xff, 0x00, 0xff, 0x00, 0xff, 0x00]

/-- Their block, with the last sample repeated once. -/
def sevenSamplesCoded : List U8 := [0xe0, 0x1f, 0xe0, 0x1f, 0xe0, 0x1f, 0xe0, 0x00, 0x00]

/-- The code of `sevenSamples`. -/
def sevenSamplesCode (xs : List U8) : List U8 := if xs = sevenSamples then sevenSamplesCoded else []

/-- The decoder of `sevenSamples`. -/
def sevenSamplesDecode (xs : List U8) : List U8 :=
  decodeOne sevenSamplesCoded (sevenSamples ++ [0x00]) xs

/-- The header the decompressor reads back. -/
def sevenSamplesHeader : IqzipCompressionHeader :=
  ((DecompressorImpl.construct (zeroStorage (Given U8))).dCcsdsCipHdr.parseBuffer
    ((byteHeader.headerBytes ++ sevenSamplesCoded).take 18)).2

/-- **Seven samples come back as eight.** libaec does what it promises, the header says what it has
to, and yet the input does not come back. -/
theorem sevenSamples_not_restored :
    Encodes (.ofFunctions (fun _ => []) sevenSamplesCode) Given.start sevenSamples 1 (fun _ => [])
        sevenSamplesCoded
      ∧ Decodes (.ofFunctions sevenSamplesDecode sevenSamplesDecode) Given.start sevenSamplesCoded 1
        sevenSamplesDecode
      ∧ PaddedTo 8 1 sevenSamples (sevenSamplesDecode sevenSamplesCoded)
      ∧ 18 ≤ (byteHeader.headerBytes ++ sevenSamplesCoded).length
      ∧ (DecompressorImpl.construct (zeroStorage (Given U8))).dCcsdsCipHdr.parseBuffer
          ((byteHeader.headerBytes ++ sevenSamplesCoded).take 18)
        = (byteHeader.headerBytes.length, sevenSamplesHeader)
      ∧ aecParamsOf sevenSamplesHeader.decodedConfig = aecParamsOf byteConfig
      ∧ ¬ Restores (.ofFunctions (fun _ => []) sevenSamplesCode)
        (.ofFunctions sevenSamplesDecode sevenSamplesDecode) (zeroStorage _) (zeroStorage _)
        byteConfig (fun _ => 0) (fun _ => 0) (FileSystem.empty.put "in" sevenSamples) "in" "in.iqz"
        "out" sevenSamples := by
  have hwidth : (aecParamsOf byteConfig).bytesPerSample = 1 := by decide
  have hencodes := @encodes_atFlush sevenSamplesCode sevenSamples (by decide)
  have hdecodes := decodes_one sevenSamplesCoded (sevenSamples ++ [0x00]) sevenSamplesCoded
  have hpayload : sevenSamplesCoded = (sevenSamplesCode sevenSamples).take (0 + chunk) := by decide
  have hlen : 18 ≤ (byteHeader.headerBytes ++ sevenSamplesCoded).length := by decide
  have hparse : (DecompressorImpl.construct (zeroStorage (Given U8))).dCcsdsCipHdr.parseBuffer
      ((byteHeader.headerBytes ++ sevenSamplesCoded).take 18)
      = (byteHeader.headerBytes.length, sevenSamplesHeader) := Prod.ext (by decide) rfl
  have hparams : aecParamsOf sevenSamplesHeader.decodedConfig = aecParamsOf byteConfig := by decide
  refine ⟨hencodes, hdecodes, ⟨1, by decide, by decide, by decide⟩, hlen, hparse, hparams, ?_⟩
  rw [← hwidth] at hencodes hdecodes
  refine mt (restores_iff_decode _ _ (FileSystem.content_put_self ..) (by decide) (by decide) rfl
    rfl (by rw [hwidth]; exact Nat.one_dvd _) rfl rfl hencodes hpayload hdecodes hlen hparse
    hparams).mp ?_
  rintro ⟨-, -, -, hself⟩
  exact absurd hself (by decide)

end IQzip
