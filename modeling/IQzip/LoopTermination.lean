import IQzip.Lossless
import IQzip.ChunkBoundary
import IQzip.ByteAccounting

/-! # Termination of the file loops

The loop of `compress()` and `decompress()` has no counter: two flags drive it, and a chunk is read
only when `avail_in` is 0. Over an encoder that takes whole samples it ends exactly when a chunk of
`CHUNK` bytes is whole samples or the file is shorter (`compress_ends_iff`): a piece of a sample at
the end of a chunk is never used and never joined by the next. A decoder takes bytes, and
its loop always ends with everything decoded (`decompress_completes`). -/

namespace IQzip

open Library

variable {σ : Type}

/-! ## The compressor -/

/-- **`compress()` comes to its end**: the loop is left with the whole file read and used, and the
function returns. -/
def IqzipImpl.CompressExits (api : Aec σ) (c : IqzipImpl σ) (fs : FileSystem) (fin : String)
    (cell : Nat → U8) : Prop :=
  ∃ l status c' fs',
    Exits (FileLoop.step api) (FileLoop.start c fs { size := chunk, cell := cell })
        (.ok (aecOk, l))
      ∧ l.HasRead fin
      ∧ Returns (fun fuel => c.compress api fuel cell fs) (.ok (status, c', fs'))

section Compress

variable {api : Aec σ} {c : IqzipImpl σ} {fs : FileSystem} {fin fout : String} {base : List U8}
  {s₀ : σ} {cell : Nat → U8} {g : Nat}

/-- A bounded encoder stays below the bound of the loop. -/
theorem length_written_lt {input : List U8}
    (makes : api.coder.MakesAtMost chunk s₀ input (2 ^ 31 - 1)) {q : Pump σ U8 U8}
    (hloops : Loops (Pump.step api.coder chunk) (Pump.start s₀ input) q) :
    q.written.length < 2 ^ 31 := by
  obtain ⟨used, hq⟩ := Pump.sound_of_loops hloops
  have := makes hq.reaches
  omega

/-- **When chunks are whole samples, or the file fits in one, `compress()` ends.** -/
theorem compressExits_of_fits (hopen : FileLoop.Opened c fs fin fout 0 base s₀) (hne : fin ≠ fout)
    (accepts : api.coder.Accepts chunk s₀ (fs.bytesAt fin))
    (draws : api.coder.Draws chunk s₀ (fs.bytesAt fin) g 1)
    (makes : api.coder.MakesAtMost chunk s₀ (fs.bytesAt fin) (2 ^ 31 - 1))
    (hdvd : g ∣ (fs.bytesAt fin).length) (hfit : g ∣ chunk ∨ (fs.bytesAt fin).length < chunk) :
    c.CompressExits api fs fin cell := by
  have hrep := hopen.represents cell
  rw [List.drop_zero] at hrep
  obtain ⟨q, hexit, hpending, hunread⟩ :=
    Pump.exists_exits_of_draws draws makes Nat.one_pos (by decide) accepts hdvd hfit
  obtain ⟨l, hl, hlast⟩ := hrep.exits hne (fun _ => length_written_lt makes) hexit
  have hbound : q.written.length < 2 ^ 31 := by
    obtain ⟨last, hloops, hleave⟩ := hexit
    rw [Pump.eq_of_step_zero hleave]
    exact length_written_lt makes hloops
  obtain ⟨status, c', fs', hflush⟩ : ∃ status c' fs', l.flush api = .ok (status, c', fs') :=
    hlast.flush_returns hbound
  refine ⟨l, status, c', fs', hl, hlast.hasRead hne hpending hunread, ?_⟩
  rw [← hflush]
  exact IqzipImpl.compress_returns_of_exits hl

/-- **When they are not, and the file fills a chunk, the loop goes on for ever.** -/
theorem not_exits_of_piece (hopen : FileLoop.Opened c fs fin fout 0 base s₀) (hne : fin ≠ fout)
    (accepts : api.coder.Accepts chunk s₀ (fs.bytesAt fin))
    (draws : api.coder.Draws chunk s₀ (fs.bytesAt fin) g 1)
    (makes : api.coder.MakesAtMost chunk s₀ (fs.bytesAt fin) (2 ^ 31 - 1)) (hpiece : ¬ g ∣ chunk)
    (hlen : chunk ≤ (fs.bytesAt fin).length) (result : Except Abort (Int × FileLoop σ)) :
    ¬ Exits (FileLoop.step api) (FileLoop.start c fs { size := chunk, cell := cell }) result := by
  have hrep := hopen.represents cell
  rw [List.drop_zero] at hrep
  exact hrep.not_exits hne (fun _ => length_written_lt makes)
    (fun _ => Pump.not_exits_of_draws draws accepts hpiece hlen) result

/-- **`compress()` ends exactly when no three-byte sample meets the end of a chunk.** From what a
successful `compress_init` leaves, with libaec as an encoder whose calls succeed, take whole samples
and stop only when the samples or the output space run out, and which makes fewer than `2^31` bytes,
and a file of whole samples: the loop is left with the whole file read exactly when the sample
resolution is not 17 to 24 or the file has fewer than `CHUNK` bytes. -/
theorem compress_ends_iff (hopen : FileLoop.Opened c fs fin fout 0 base s₀) (hne : fin ≠ fout)
    (hres : 1 ≤ c.config.sampleResolution ∧ c.config.sampleResolution ≤ 32)
    (accepts : api.coder.Accepts chunk s₀ (fs.bytesAt fin))
    (draws : api.coder.Draws chunk s₀ (fs.bytesAt fin) (aecParamsOf c.config).bytesPerSample 1)
    (makes : api.coder.MakesAtMost chunk s₀ (fs.bytesAt fin) (2 ^ 31 - 1))
    (hdvd : (aecParamsOf c.config).bytesPerSample ∣ (fs.bytesAt fin).length) :
    c.CompressExits api fs fin cell
      ↔ ¬ (17 ≤ c.config.sampleResolution ∧ c.config.sampleResolution ≤ 24)
        ∨ (fs.bytesAt fin).length < chunk := by
  have hcond : (¬ (17 ≤ c.config.sampleResolution ∧ c.config.sampleResolution ≤ 24)
      ∨ (fs.bytesAt fin).length < chunk)
      ↔ ((aecParamsOf c.config).bytesPerSample ∣ chunk ∨ (fs.bytesAt fin).length < chunk) := by
    rw [bytesPerSample_fits_iff, ← bytesPerSample_eq_three_iff hres, not_and_or, not_le]
  rw [hcond]
  constructor
  · rintro ⟨l, -, -, -, hexit, -, -⟩
    by_contra hbad
    rw [not_or, not_lt] at hbad
    exact not_exits_of_piece hopen hne accepts draws makes hbad.1 hbad.2 _ hexit
  · exact compressExits_of_fits hopen hne accepts draws makes hdvd

end Compress

/-! ## Two encoders -/

/-- A new compressor after `compress_init` on the file `in`. -/
def openedCompressor (cfg : Config) (s₀ : σ) : IqzipImpl σ :=
  { (CompressorImpl.construct (zeroStorage σ) cfg).toIqzipImpl with
    dStrm := initStream cfg (some s₀)
    inputStream := .opened "in" 0 false
    outputStream := .opened "out.iqz" false }

/-- The files then. -/
def openedFiles (cfg : Config) (input : List U8) : FileSystem :=
  (FileSystem.empty.put "in" input).put "out.iqz" (zeroedHeader cfg).headerBytes

/-- `compress_init` leaves them, when the coder starts. -/
theorem compressInit_opened {api : Aec σ} {cfg : Config} {s₀ : σ} (input : List U8)
    (hinit : api.init (aecParamsOf cfg) = (aecOk, some s₀)) :
    (CompressorImpl.construct (zeroStorage σ) cfg).compressInit api
        (FileSystem.empty.put "in" input) "in" "out.iqz"
      = .ok (aecOk, openedCompressor cfg s₀, openedFiles cfg input) := by
  rw [IqzipImpl.compressInit_eq rfl rfl (FileSystem.content_put_self ..) (by decide) rfl]
  rw [show (CompressorImpl.construct (zeroStorage σ) cfg).config = cfg from rfl, hinit]
  rfl

/-- It is opened, and its input file holds `input`. -/
theorem opened_openedCompressor (cfg : Config) (s₀ : σ) (input : List U8) :
    FileLoop.Opened (openedCompressor cfg s₀) (openedFiles cfg input) "in" "out.iqz" 0
        (zeroedHeader cfg).headerBytes s₀
      ∧ (openedFiles cfg input).bytesAt "in" = input :=
  IqzipImpl.opened_of_init _ _ s₀ (by decide) (FileSystem.content_put_self ..)

/-- `compress()` ends on eight samples. -/
theorem compress_ends_eightSamples :
    (openedCompressor byteConfig Given.start).CompressExits eightSamplesEncoder
      (openedFiles byteConfig eightSamples) "in" (fun _ => 0) := by
  have hwidth : (aecParamsOf byteConfig).bytesPerSample = 1 := by decide
  obtain ⟨hopen, hsource⟩ := opened_openedCompressor byteConfig (Given.start : Given U8)
    eightSamples
  have hpaced : eightSamplesEncoder.coder.Paced chunk Given.start eightSamples 1 1 (fun _ => []) :=
    Coder.eager_paced fun _ _ _ => List.nil_prefix
  have hmakes := hpaced.makesAtMost.mono (Nat.zero_le (2 ^ 31 - 1))
  have haccepts := eightSamplesEncoder_feeds.accepts
  have hdraws := hpaced.draws
  rw [← hwidth] at hdraws
  rw [← hsource] at haccepts hmakes hdraws
  have hdvd : (aecParamsOf byteConfig).bytesPerSample
      ∣ ((openedFiles byteConfig eightSamples).bytesAt "in").length := by
    rw [hwidth]
    exact Nat.one_dvd _
  exact (compress_ends_iff hopen (by decide) (by decide) haccepts hdraws hmakes hdvd).mpr
    (Or.inl (by decide))

/-- A configuration for samples of 24 bits, with reference intervals longer than a chunk: nothing
comes out before the flush. -/
abbrev threeByteConfig : Config := commandLineConfig 0 1 1 0 24 255 32768

/-- 3495254 samples of three bytes, two bytes more than a chunk. -/
def longInput : List U8 := List.replicate 10485762 0

/-- It is two bytes longer than a chunk. -/
theorem length_longInput : longInput.length = 10485762 := List.length_replicate

/-- **`compress()` never ends.** With samples of 24 bits, on a file of whole samples that is longer
than a chunk: the first byte of a sample stays at the end of the chunk, and every turn offers it to
the encoder again. -/
theorem compress_endless_longInput :
    (CompressorImpl.construct (zeroStorage _) threeByteConfig).compressInit (wholeSamples 3)
        (FileSystem.empty.put "in" longInput) "in" "out.iqz"
      = .ok (aecOk, openedCompressor threeByteConfig (), openedFiles threeByteConfig longInput)
    ∧ (wholeSamples 3).coder.Accepts chunk () longInput
    ∧ (wholeSamples 3).coder.Draws chunk () longInput
        (aecParamsOf threeByteConfig).bytesPerSample 1
    ∧ (wholeSamples 3).coder.MakesAtMost chunk () longInput (2 ^ 31 - 1)
    ∧ (aecParamsOf threeByteConfig).bytesPerSample ∣ longInput.length
    ∧ ∀ result, ¬ Exits (FileLoop.step (wholeSamples 3))
        (FileLoop.start (openedCompressor threeByteConfig ())
          (openedFiles threeByteConfig longInput) { size := chunk, cell := fun _ => 0 })
        result := by
  have hwidth : (aecParamsOf threeByteConfig).bytesPerSample = 3 := by decide
  obtain ⟨hopen, hsource⟩ := opened_openedCompressor threeByteConfig () longInput
  have haccepts : (wholeSamples 3).coder.Accepts chunk () longInput := fun _ _ _ _ _ _ _ => rfl
  have hdraws : (wholeSamples 3).coder.Draws chunk () longInput 3 1 :=
    fun _ _ _ _ _ _ _ _ => Or.inl rfl
  have hmakes : (wholeSamples 3).coder.MakesAtMost chunk () longInput (2 ^ 31 - 1) := by
    intro s used made hs
    have hnil : made = [] := by
      induction hs with
      | start => rfl
      | call _ _ _ _ ih => rw [ih]; rfl
    rw [hnil]
    exact Nat.zero_le _
  refine ⟨compressInit_opened longInput rfl, haccepts, by rwa [hwidth], hmakes,
    by rw [hwidth, length_longInput]; decide, ?_⟩
  have hpiece : ¬ 3 ∣ chunk := by decide
  have hlen : chunk ≤ longInput.length := by
    rw [length_longInput]
    decide
  rw [← hsource] at haccepts hdraws hmakes hlen
  exact not_exits_of_piece hopen (by decide) haccepts hdraws hmakes hpiece hlen

/-! ## The decompressor -/

section Decompress

variable {api : Aec σ} {fs : FileSystem} {fin fout : String} {pos : Nat} {s₀ : σ}
  {payload : List U8} {decode : List U8 → List U8}

/-- What a turn of the loop calls the coder with is the call of the turn of the pump. -/
theorem status_of_represents {api : Aec σ} {base : List U8} {l : FileLoop σ} {p : Pump σ U8 U8}
    (hne : fin ≠ fout) (h : FileLoop.Represents fs fin fout base l p)
    (hok : ∀ status strm out, api.code .noFlush l.refill.impl.dStrm l.refill.out
      = .ok (status, strm, out) → status = aecOk) :
    (p.answer api.coder chunk).status = 0 := by
  have hcode : api.code .noFlush l.refill.impl.dStrm l.refill.out = _ :=
    (h.refill hne).code .noFlush
  rw [Pump.state_refill, ← Pump.answer] at hcode
  exact hok _ _ _ hcode

/-- **`decompress()` ends, and is complete.** From what a successful `decompress_init` leaves, with
libaec as a decoder that makes all it can of what it has taken or leaves less space than a sample
needs, and a ledger of its calls: when no decode call of the loop fails and the whole output has
fewer than `2^31` bytes, the function returns 0, the decoder has used every byte of the payload once
and in order, and the output file holds everything decoded. -/
theorem decompress_completes {c : IqzipImpl (Coder.Ledger σ U8 U8)} (cell : Nat → U8)
    (hopen : FileLoop.Opened c fs fin fout pos [] (.start s₀)) (hne : fin ≠ fout)
    (hpayload : (fs.bytesAt fin).drop pos = payload)
    (paced : api.coder.Paced chunk s₀ payload 1 (aecParamsOf c.config).bytesPerSample decode)
    (hok : ∀ l status strm out, Loops (FileLoop.step api.recording)
        (FileLoop.start c fs { size := chunk, cell := cell }) l →
      (l.inputAvail || l.outputAvail) = true →
      api.recording.code .noFlush l.refill.impl.dStrm l.refill.out = .ok (status, strm, out) →
      status = aecOk)
    (hsmall : (decode payload).length < 2 ^ 31) :
    ∃ c' fs' led, Returns (fun fuel => c.decompress api.recording fuel cell fs)
        (.ok (0, c', fs'))
      ∧ c'.dStrm.state = some led ∧ led.used = payload ∧ led.made = decode payload
      ∧ fs'.content fout = some (decode payload) := by
  have hrep := hopen.represents cell
  rw [hpayload] at hrep
  have hwidth := (aecParamsOf c.config).bytesPerSample_bounds
  have hbound : (aecParamsOf c.config).bytesPerSample ≤ chunk := Nat.le_trans hwidth.2 (by decide)
  have hbelow : ∀ q, Loops (Pump.step api.recording.coder chunk) (Pump.start (.start s₀) payload)
      q → q.written.length < 2 ^ 31 := fun q hq =>
    Nat.lt_of_le_of_lt (Pump.length_written_le paced.recording hq) hsmall
  -- every head of the pump is a head of the loop, where no call fails
  have hturns : ∀ p, Loops (Pump.step api.recording.coder chunk)
      (Pump.start (.start s₀) payload) p → (p.inputAvail || p.outputAvail) = true →
      (p.answer api.recording.coder chunk).status = 0 := by
    intro p hloops hgo
    obtain ⟨l, hl, hlp⟩ := hrep.loops hne hbelow hloops
    rw [← hlp.inputAvail, ← hlp.outputAvail] at hgo
    exact status_of_represents hne hlp fun status strm out => hok l status strm out hl hgo
  obtain ⟨q, hexit, -, -, hwritten, hreach⟩ := Pump.exists_exits_of_run paced.recording hwidth.1
    hbound hturns (Nat.one_dvd _) (Or.inl (Nat.one_dvd _))
  obtain ⟨l, hl, hlq⟩ := hrep.exits hne hbelow hexit
  obtain ⟨-, hused, hmade⟩ := Coder.recording_reaches hreach
  obtain ⟨n, hn⟩ := hl.returns
  refine ⟨l.impl, l.fs, q.state, ⟨n, fun fuel hle => ?_⟩, hlq.state, hused, hmade.trans hwritten,
    ?_⟩
  · simp only [IqzipImpl.decompress, hn fuel hle, Option.map_some]
    rfl
  · rw [hlq.files, FileSystem.content_put_self, List.nil_append, hwritten]

end Decompress

/-- `decompress()` on `eightSamplesFile` is complete. -/
theorem decompress_completes_eightSamples :
    ∃ c' fs' led, Returns (fun fuel => FileLoop.openedEightSamples.decompress
        (Aec.ofFunctions eightSamplesDecode eightSamplesDecode).recording fuel (fun _ => 0)
        FileLoop.eightSamplesFiles) (.ok (0, c', fs'))
      ∧ c'.dStrm.state = some led ∧ led.used = eightSamplesCoded
      ∧ led.made = eightSamplesDecode eightSamplesCoded
      ∧ fs'.content "out" = some (eightSamplesDecode eightSamplesCoded) := by
  have hwidth : (aecParamsOf FileLoop.openedEightSamples.config).bytesPerSample = 1 := by decide
  have hne : "in.iqz" ≠ "out" := by decide
  obtain ⟨hopen, hsource⟩ := (DecompressorImpl.construct (zeroStorage _)).opened_represents 14
    eightSamplesHeader (Coder.Ledger.start (Given.start : Given U8))
    (FileSystem.content_put_self FileSystem.empty "in.iqz" eightSamplesFile) hne
  have hpaced : (Aec.ofFunctions eightSamplesDecode eightSamplesDecode).coder.Paced chunk
      Given.start eightSamplesCoded 1 1 eightSamplesDecode :=
    Coder.eager_paced (decodeOne_mono _ _)
  rw [← hwidth] at hpaced
  refine decompress_completes (fun _ => 0) hopen hne
    (hsource.trans (List.drop_left' (by decide))) hpaced ?_ (by decide)
  intro l status strm out _ _ hcode
  obtain ⟨s, hs⟩ := Aec.status_of_code hcode
  exact hs

end IQzip
