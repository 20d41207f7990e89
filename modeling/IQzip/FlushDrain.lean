import IQzip.LoopTermination

/-! # Draining the encoder

After its loop `compress()` flushes the encoder with one call, which has `CHUNK` bytes of output
space. An encoder that holds samples back until the flush may have more to give: the call stops
with `AEC_OK` when the space is used up, and nobody calls again. The output is complete exactly when
the code of what was held back takes at most `CHUNK` bytes (`compress_drained_iff`). A reference
interval of 255 blocks of 32768 samples of 32 bits may take three times as much. -/

namespace IQzip

open Library

variable {σ : Type}

section Drain

variable {api : Aec σ} {c : IqzipImpl σ} {fs : FileSystem} {fin fout : String} {base : List U8}
  {s₀ : σ} {input coded held : List U8} {early : List U8 → List U8} {g : Nat} {cell : Nat → U8}
  {l : FileLoop σ}

/-- **What the flush leaves.** When the loop was left with all input used, `compress()` returns 0
with the output up to the space of one call in the file, and the encoder after one flushing
call. -/
theorem compress_flushed (hopen : FileLoop.Opened c fs fin fout 0 base s₀) (hne : fin ≠ fout)
    (hinput : fs.bytesAt fin = input) (paced : api.coder.Paced chunk s₀ input g 1 early)
    (finishes : api.coder.Finishes chunk s₀ input coded)
    (hexit : Exits (FileLoop.step api) (FileLoop.start c fs { size := chunk, cell := cell })
      (.ok (aecOk, l)))
    (hall : l.impl.dStrm.availIn = 0) :
    ∃ c' s made, Returns (fun fuel => c.compress api fuel cell fs)
        (.ok (0, c', fs.put fout (base ++ made)))
      ∧ c'.dStrm.state = some s ∧ api.coder.Ends chunk s₀ input s made
      ∧ made = coded.take ((early input).length + chunk) := by
  have hrep := hopen.represents cell
  rw [List.drop_zero, hinput] at hrep
  obtain ⟨q, hq, hsmall, hlast⟩ := hrep.pump_exits_ok hne hexit
  have hpending : q.pending = [] := by
    rw [← List.length_eq_zero_iff, ← hlast.availIn, hall]
  obtain ⟨hwritten, hreach⟩ := Pump.exits_used paced (by decide) hq hpending
  have hends : api.coder.Ends chunk s₀ input q.state q.written := .used hreach
  obtain ⟨c', hflush, hstate⟩ := hlast.flush (by rw [hpending]; exact finishes.status hends) hsmall
  have hrun := IqzipImpl.compress_returns_of_exits hexit
  rw [hpending] at hflush hstate
  rw [hflush] at hrun
  refine ⟨c', _, _, hrun, hstate, hends.flush, ?_⟩
  rw [finishes.flush hends, hwritten]

/-- **The encoder is drained exactly when what it held back fits in `CHUNK` bytes.** From what a
successful `compress_init` leaves, with libaec as an encoder that stops when the samples or the
output space run out, makes `early` of the samples before the flush and holds back `held` until
then, and a loop that was left with all input used: when `compress()` returns 0, the file holds the
header and the complete output, and the encoder has nothing more to give, exactly when `held` has at
most `CHUNK` bytes. The stream is still open then: what the file holds is its logical content. -/
theorem compress_drained_iff
    (hopen : FileLoop.Opened c fs fin fout 0 c.dCcsdsCipHdr.headerBytes s₀) (hne : fin ≠ fout)
    (hinput : fs.bytesAt fin = input)
    (paced : api.coder.Paced chunk s₀ input (aecParamsOf c.config).bytesPerSample 1 early)
    (finishes : api.coder.Finishes chunk s₀ input (early input ++ held))
    (hexit : Exits (FileLoop.step api) (FileLoop.start c fs { size := chunk, cell := cell })
      (.ok (aecOk, l)))
    (hall : l.impl.dStrm.availIn = 0) {c' : IqzipImpl σ} {fs' : FileSystem}
    (hreturns : Returns (fun fuel => c.compress api fuel cell fs) (.ok (0, c', fs'))) :
    (fs'.content fout = some (c.dCcsdsCipHdr.headerBytes ++ (early input ++ held))
        ∧ ∃ s, c'.dStrm.state = some s ∧ api.coder.Drained chunk s)
      ↔ held.length ≤ chunk := by
  obtain ⟨c'', s, made, hrun, hstate, hends, hmade⟩ :=
    compress_flushed hopen hne hinput paced finishes hexit hall
  cases hreturns.unique hrun
  have hcomplete : made = early input ++ held ↔ held.length ≤ chunk := by
    rw [hmade, List.take_eq_self_iff, List.length_append, Nat.add_le_add_iff_left]
  constructor
  · rintro ⟨hfile, -⟩
    rw [FileSystem.content_put_self, Option.some.injEq, List.append_cancel_left_eq] at hfile
    exact hcomplete.mp hfile
  · intro hfits
    have hdone := hcomplete.mpr hfits
    exact ⟨by rw [FileSystem.content_put_self, hdone], s, hstate,
      (finishes.drained_iff (by decide) hends).mpr hdone⟩

end Drain

/-! ## A short interval and a long one -/

/-- An encoder of whole samples of `g` bytes that makes everything at the flush. -/
abbrev atFlush (g : Nat) (code : List U8 → List U8) : Aec (Given U8) :=
  { Aec.ofFunctions (fun _ => []) code with coder := (Coder.eager (fun _ => []) code).whole g }

/-- It draws groups and makes nothing before the flush. -/
theorem atFlush_paced (g : Nat) (code : List U8 → List U8) (input : List U8) :
    (atFlush g code).coder.Paced chunk Given.start input g 1 (fun _ => []) :=
  (Coder.eager_paced fun _ _ _ => List.nil_prefix).whole fun _ _ => rfl

/-- It makes everything in the flush. -/
theorem atFlush_finishes (g : Nat) (code : List U8 → List U8) (input : List U8) :
    (atFlush g code).coder.Finishes chunk Given.start input (code input) :=
  (Coder.eager_finishes (fun _ _ _ => List.nil_prefix) List.nil_prefix).whole

/-- The loop of a new compressor over such an encoder is left with all input used. -/
theorem atFlush_exits {g : Nat} (cfg : Config) (code : List U8 → List U8) {input : List U8}
    (hdvd : g ∣ input.length) (hfit : g ∣ chunk) :
    ∃ l, Exits (FileLoop.step (atFlush g code))
        (FileLoop.start (openedCompressor cfg Given.start) (openedFiles cfg input)
          { size := chunk, cell := fun _ => 0 }) (.ok (aecOk, l))
      ∧ l.impl.dStrm.availIn = 0 := by
  obtain ⟨hopen, hsource⟩ := opened_openedCompressor cfg (Given.start : Given U8) input
  have hpaced := atFlush_paced g code input
  have haccepts : (atFlush g code).coder.Accepts chunk Given.start input :=
    (Coder.eager_accepts (fun _ => []) code).whole
  have hdraws := hpaced.draws
  have hmakes := hpaced.makesAtMost.mono (Nat.zero_le (2 ^ 31 - 1))
  rw [← hsource] at hdraws hmakes haccepts hdvd
  have hends : (openedCompressor cfg Given.start).CompressExits (atFlush g code)
      (openedFiles cfg input) "in" fun _ => 0 :=
    compressExits_of_fits hopen (by decide) haccepts hdraws hmakes hdvd (Or.inl hfit)
  obtain ⟨l, -, -, -, hexit, hread, -⟩ := hends
  exact ⟨l, hexit, hread.1⟩

/-- The block of `eightSamples` is drained. -/
theorem compress_drained_eightSamples :
    ∃ c' fs', Returns (fun fuel => (openedCompressor byteConfig Given.start).compress
        (atFlush 1 eightSamplesCode) fuel (fun _ => 0) (openedFiles byteConfig eightSamples))
        (.ok (0, c', fs'))
      ∧ fs'.content "out.iqz" = some ((zeroedHeader byteConfig).headerBytes
        ++ ([] ++ eightSamplesCode eightSamples))
      ∧ ∃ s, c'.dStrm.state = some s ∧ (atFlush 1 eightSamplesCode).coder.Drained chunk s := by
  have hwidth : (aecParamsOf byteConfig).bytesPerSample = 1 := by decide
  obtain ⟨hopen, hsource⟩ := opened_openedCompressor byteConfig (Given.start : Given U8)
    eightSamples
  have hdvd : 1 ∣ eightSamples.length := Nat.one_dvd _
  obtain ⟨l, hexit, hall⟩ := atFlush_exits byteConfig eightSamplesCode hdvd (Nat.one_dvd _)
  have hpaced := atFlush_paced 1 eightSamplesCode eightSamples
  obtain ⟨c', s, made, hrun, -⟩ := compress_flushed hopen (by decide) hsource hpaced
    (atFlush_finishes 1 eightSamplesCode eightSamples) hexit hall
  rw [← hwidth] at hpaced
  exact ⟨c', _, hrun, (compress_drained_iff hopen (by decide) hsource hpaced
    (atFlush_finishes 1 eightSamplesCode eightSamples) hexit hall hrun).mpr (by decide)⟩

/-- A configuration with long reference intervals: 255 blocks of 32768 samples of 32 bits. -/
abbrev longIntervalConfig : Config := commandLineConfig 0 1 1 0 32 255 32768

/-- 81 blocks of samples that are all ones. -/
def fullScale : List U8 := List.replicate 10616832 0xff

/-- Their code: for every block the five ones of the no-compression option and the samples, so that
nothing but the padding of the last byte is zero. -/
def fullScaleCoded : List U8 := List.replicate 10616882 0xff ++ [0xf8]

/-- The code of `fullScale`; other inputs have none here. -/
def fullScaleCode (xs : List U8) : List U8 := if xs = fullScale then fullScaleCoded else []

/-- It is longer than a chunk. -/
theorem length_fullScale : fullScale.length = 10616832 := List.length_replicate

/-- Its code is a little longer still. -/
theorem length_fullScaleCoded : fullScaleCoded.length = 10616883 := by
  rw [fullScaleCoded, List.length_append, List.length_replicate]
  rfl

/-- **The end of the code is missing.** All of `fullScale` is in one reference interval, so the
encoder holds all of it back. The loop is left with everything used and `compress()` returns 0, and
yet the file ends after `CHUNK` bytes of the code, with the encoder still holding the rest. -/
theorem compress_notDrained_fullScale :
    longIntervalConfig.Legal
    ∧ (aecParamsOf longIntervalConfig).bytesPerSample ∣ fullScale.length
    ∧ fullScale.length ≤ longIntervalConfig.referenceSampleInterval.toNat
      * longIntervalConfig.blockSize.toNat * (aecParamsOf longIntervalConfig).bytesPerSample
    ∧ (CompressorImpl.construct (zeroStorage _) longIntervalConfig).compressInit
        (atFlush 4 fullScaleCode) (FileSystem.empty.put "in" fullScale) "in" "out.iqz"
      = .ok (aecOk, openedCompressor longIntervalConfig Given.start,
        openedFiles longIntervalConfig fullScale)
    ∧ (atFlush 4 fullScaleCode).coder.Paced chunk Given.start fullScale
        (aecParamsOf longIntervalConfig).bytesPerSample 1 (fun _ => [])
    ∧ (atFlush 4 fullScaleCode).coder.Finishes chunk Given.start fullScale fullScaleCoded
    ∧ (∃ l, Exits (FileLoop.step (atFlush 4 fullScaleCode))
        (FileLoop.start (openedCompressor longIntervalConfig Given.start)
          (openedFiles longIntervalConfig fullScale) { size := chunk, cell := fun _ => 0 })
        (.ok (aecOk, l)) ∧ l.impl.dStrm.availIn = 0)
    ∧ ∃ c' fs' s, Returns (fun fuel => (openedCompressor longIntervalConfig Given.start).compress
        (atFlush 4 fullScaleCode) fuel (fun _ => 0) (openedFiles longIntervalConfig fullScale))
        (.ok (0, c', fs'))
      ∧ fs'.content "out.iqz" ≠ some ((zeroedHeader longIntervalConfig).headerBytes
        ++ fullScaleCoded)
      ∧ c'.dStrm.state = some s ∧ ¬ (atFlush 4 fullScaleCode).coder.Drained chunk s := by
  have hwidth : (aecParamsOf longIntervalConfig).bytesPerSample = 4 := by decide
  have hchunk := chunk_eq
  have hcode : fullScaleCode fullScale = fullScaleCoded := if_pos rfl
  have hfinishes := atFlush_finishes 4 fullScaleCode fullScale
  have hdvd : 4 ∣ fullScale.length := by
    rw [length_fullScale]
    decide
  rw [hcode] at hfinishes
  rw [hwidth]
  obtain ⟨hopen, hsource⟩ := opened_openedCompressor longIntervalConfig (Given.start : Given U8)
    fullScale
  obtain ⟨l, hexit, hall⟩ := atFlush_exits longIntervalConfig fullScaleCode hdvd
    (show 4 ∣ chunk by decide)
  obtain ⟨c', s, made, hrun, hstate, hends, hmade⟩ := compress_flushed hopen (by decide) hsource
    (atFlush_paced 4 fullScaleCode fullScale) hfinishes hexit hall
  -- the code is longer than a chunk, and a chunk of it was taken
  have hshort : made ≠ fullScaleCoded := by
    rw [hmade, ne_eq, List.take_eq_self_iff, List.length_nil, length_fullScaleCoded]
    omega
  refine ⟨by decide, hdvd, by rw [length_fullScale]; decide, compressInit_opened fullScale rfl,
    atFlush_paced 4 fullScaleCode fullScale, hfinishes, ⟨l, hexit, hall⟩, c', _, s, hrun, ?_,
    hstate, ?_⟩
  · rw [FileSystem.content_put_self, ne_eq, Option.some.injEq, List.append_cancel_left_eq]
    exact hshort
  · rw [hfinishes.drained_iff (by decide) hends]
    exact hshort

end IQzip
