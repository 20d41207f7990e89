import IQzip.StreamAgreement

/-! # Samples at the block boundary

`stream_compress` hands the encoder blocks of `STREAM_CHUNK` bytes and clears `avail_in` after each.
An encoder that takes whole samples leaves an incomplete sample at the end of a block unread, and
that sample is then lost. `STREAM_CHUNK` is a power of two, so this happens for samples of three
bytes and for no others. -/

namespace IQzip

open Library

variable {σ : Type}

/-- The samples of three bytes are those of 17 to 24 bits. -/
theorem bytesPerSample_eq_three_iff {cfg : Config}
    (hres : 1 ≤ cfg.sampleResolution ∧ cfg.sampleResolution ≤ 32) :
    (aecParamsOf cfg).bytesPerSample = 3
      ↔ 17 ≤ cfg.sampleResolution ∧ cfg.sampleResolution ≤ 24 := by
  -- 256 resolutions, of which 32 are admitted
  have hall : ∀ r : U8, 1 ≤ r ∧ r ≤ 32 →
      ((if (r.setWidth 32 : U32).toNat ≤ 8 then 1
        else if (r.setWidth 32 : U32).toNat ≤ 16 then 2
        else if (r.setWidth 32 : U32).toNat ≤ 24 then 3
        else 4) = 3 ↔ 17 ≤ r ∧ r ≤ 24) := by decide
  exact hall cfg.sampleResolution hres

/-- A block is whole samples, except for samples of three bytes. -/
theorem bytesPerSample_dvd_streamChunk {cfg : Config}
    (hres : 1 ≤ cfg.sampleResolution ∧ cfg.sampleResolution ≤ 32) :
    (aecParamsOf cfg).bytesPerSample ∣ streamChunk
      ↔ ¬ (17 ≤ cfg.sampleResolution ∧ cfg.sampleResolution ≤ 24) := by
  have hthree : ¬ 3 ∣ streamChunk := by decide
  have htwo : 2 ∣ streamChunk := by decide
  have hfour : 4 ∣ streamChunk := by decide
  rw [← bytesPerSample_eq_three_iff hres]
  -- `STREAM_CHUNK` is a power of two
  unfold AecParams.bytesPerSample
  split_ifs
  · simp
  · simp [htwo]
  · simp [hthree]
  · simp [hfour]

section Kept

variable {api : Aec σ} {storage : ObjectStorage (Coder.Ledger σ U8 U8)} {cfg : Config} {s₀ : σ}
  {g : Nat} {fs : FileSystem} {fout : String}

/-- The state after a new compressor has been given buffers: the coder's ledger, and the bytes held
in `d_tmp_stream`, are those of a rechunker. -/
theorem streamCompress_buffers (hres : 1 ≤ cfg.sampleResolution)
    (hinit : api.init (aecParamsOf cfg) = (aecOk, some s₀))
    (grained : Rechunker.Grained api.coder streamChunk chunk g) (hw : fs.writable fout = true)
    (bufs : List InBuf) :
    ∃ c fs' c' fs'',
      (CompressorImpl.construct storage cfg).streamCompressInit api.recording fs fout
          = .ok (aecOk, c, fs')
        ∧ c.streamCodeAll api.recording fs' bufs = .ok (c', fs'')
        ∧ c'.dStrm.state = some ((Rechunker.start (Coder.Ledger.start s₀)).pushes
          api.coder.recording streamChunk chunk (bufs.map InBuf.bytes)).state
        ∧ c'.dTmpStream.load 0 c'.dStreamAvailIn = ((Rechunker.start
          (Coder.Ledger.start s₀)).pushes api.coder.recording streamChunk chunk
          (bufs.map InBuf.bytes)).carry := by
  have htmp : streamChunk ≤ (CompressorImpl.construct storage cfg).dTmpStream.size :=
    Nat.le_mul_of_pos_left _ (by bv_omega)
  -- the recording coder starts where the encoder does, with an empty ledger
  have hrec : (api.recording.init (aecParamsOf cfg)) = (aecOk, some (Coder.Ledger.start s₀)) := by
    simp only [Aec.recording, hinit, Option.map_some]
  obtain ⟨c, hopen, hstart⟩ := CodecImpl.streamCompressInit_represents rfl hw rfl rfl htmp rfl
    (congrArg Prod.snd hrec)
  have hgood : (Rechunker.start (Coder.Ledger.start s₀)).PushesOk api.recording.coder streamChunk
      chunk (bufs.map InBuf.bytes) := (Rechunker.pushes_grained grained (by decide) rfl).1
  obtain ⟨c', fs', hrun, hrep⟩ := hstart.streamCodeAll (Or.inl hgood)
  rw [show (CompressorImpl.construct storage cfg).config = cfg from rfl, hrec] at hopen
  exact ⟨c, _, c', fs', hopen, hrun, hrep.state, hrep.carry⟩

/-- **Samples survive exactly when no three-byte sample meets a block boundary.** A new compressor,
libaec as an encoder that takes whole samples, and buffers in order: what the encoder has used,
followed by the bytes held in `d_tmp_stream`, is the concatenation of the buffers exactly when the
sample resolution is not 17 to 24 or fewer than `STREAM_CHUNK` bytes have been passed. -/
theorem streamCompress_kept_iff (hres : 1 ≤ cfg.sampleResolution ∧ cfg.sampleResolution ≤ 32)
    (hinit : api.init (aecParamsOf cfg) = (aecOk, some s₀))
    (grained : Rechunker.Grained api.coder streamChunk chunk (aecParamsOf cfg).bytesPerSample)
    (hw : fs.writable fout = true) (bufs : List InBuf) :
    ∃ c fs' c' fs'' led,
      (CompressorImpl.construct storage cfg).streamCompressInit api.recording fs fout
          = .ok (aecOk, c, fs')
        ∧ c.streamCodeAll api.recording fs' bufs = .ok (c', fs'')
        ∧ c'.dStrm.state = some led
        ∧ (led.used ++ c'.dTmpStream.load 0 c'.dStreamAvailIn = (bufs.map InBuf.bytes).flatten
          ↔ ¬ (17 ≤ cfg.sampleResolution ∧ cfg.sampleResolution ≤ 24)
            ∨ (bufs.map InBuf.bytes).flatten.length < streamChunk) := by
  obtain ⟨c, fs', c', fs'', hopen, hrun, hstate, hheld⟩ :=
    @streamCompress_buffers σ api storage cfg s₀ _ fs fout hres.1 hinit grained hw bufs
  refine ⟨c, fs', c', fs'', _, hopen, hrun, hstate, ?_⟩
  rw [hheld, Rechunker.used_append_carry_iff grained (by decide) rfl,
    bytesPerSample_dvd_streamChunk hres]

end Kept

/-! ## Two encoders -/

/-- An encoder that takes whole samples of `g` bytes; what it makes of them does not matter here. -/
def wholeSamples (g : Nat) : Aec Unit where
  init _ := (aecOk, some ())
  coder :=
    { call := fun s _ xs _ =>
        { status := 0, consumed := xs.length - xs.length % g, produced := [], next := s }
      consumed_le := fun _ _ _ _ => Nat.sub_le ..
      produced_le := fun _ _ _ _ => Nat.zero_le _ }
  fin _ := aecOk

/-- 16385 samples of two bytes, one sample more than a block. -/
def evenBuffer : InBuf :=
  { bytes := List.replicate 32770 0
    bounded := by rw [List.length_replicate]; decide }

/-- Two-byte samples are kept: none of them meets the block boundary. -/
theorem streamCompress_kept_evenBuffer :
    ∃ c fs' c' fs'' led,
      (CompressorImpl.construct (zeroStorage _)
          (commandLineConfig 0 1 1 0 16 128 8)).streamCompressInit (wholeSamples 2).recording
          .empty "out.iqz" = .ok (aecOk, c, fs')
        ∧ c.streamCodeAll (wholeSamples 2).recording fs' [evenBuffer] = .ok (c', fs'')
        ∧ c'.dStrm.state = some led
        ∧ led.used ++ c'.dTmpStream.load 0 c'.dStreamAvailIn = evenBuffer.bytes := by
  have hwidth : (aecParamsOf (commandLineConfig 0 1 1 0 16 128 8)).bytesPerSample = 2 := by decide
  have hgrained : Rechunker.Grained (wholeSamples 2).coder streamChunk chunk
      (aecParamsOf (commandLineConfig 0 1 1 0 16 128 8)).bytesPerSample := by
    rw [hwidth]
    exact fun _ _ _ => ⟨rfl, rfl⟩
  obtain ⟨c, fs', c', fs'', led, hopen, hrun, hstate, hkept⟩ := streamCompress_kept_iff
    (by decide) rfl hgrained (show FileSystem.empty.writable "out.iqz" = true from rfl) [evenBuffer]
  have hall : ([evenBuffer].map InBuf.bytes).flatten = evenBuffer.bytes := List.append_nil _
  rw [hall] at hkept
  exact ⟨c, fs', c', fs'', led, hopen, hrun, hstate, hkept.mpr (Or.inl (by decide))⟩

/-- 10923 samples of three bytes, one byte more than a block. -/
def longBuffer : InBuf :=
  { bytes := List.replicate 32769 0
    bounded := by rw [List.length_replicate]; decide }

/-- **Two bytes of a sample are lost.** With samples of 24 bits, one buffer of whole samples that is
longer than a block: the first two bytes of its last sample are nowhere any more. -/
theorem streamCompress_lost_longBuffer :
    (aecParamsOf (commandLineConfig 0 1 1 0 24 128 8)).bytesPerSample ∣ longBuffer.bytes.length
      ∧ ∃ c fs' c' fs'' led,
        (CompressorImpl.construct (zeroStorage _)
            (commandLineConfig 0 1 1 0 24 128 8)).streamCompressInit (wholeSamples 3).recording
            .empty "out.iqz" = .ok (aecOk, c, fs')
          ∧ c.streamCodeAll (wholeSamples 3).recording fs' [longBuffer] = .ok (c', fs'')
          ∧ c'.dStrm.state = some led
          ∧ led.used ++ c'.dTmpStream.load 0 c'.dStreamAvailIn ≠ longBuffer.bytes := by
  have hlen : longBuffer.bytes.length = 32769 := List.length_replicate
  have hgrained : Rechunker.Grained (wholeSamples 3).coder streamChunk chunk 3 :=
    fun _ _ _ => ⟨rfl, rfl⟩
  refine ⟨by rw [hlen]; decide, ?_⟩
  obtain ⟨c, fs', c', fs'', hopen, hrun, hstate, hheld⟩ := streamCompress_buffers
    (show 1 ≤ (commandLineConfig 0 1 1 0 24 128 8).sampleResolution by decide) rfl hgrained
    (show FileSystem.empty.writable "out.iqz" = true from rfl) [longBuffer]
  refine ⟨c, fs', c', fs'', _, hopen, hrun, hstate, ?_⟩
  have hall : ([longBuffer].map InBuf.bytes).flatten = longBuffer.bytes := List.append_nil _
  -- 3 does not divide a block, and the buffer is longer than one
  rw [hheld, ne_eq, Rechunker.used_append_carry_iff hgrained (by decide) hall, hlen]
  decide

end IQzip
