import IQzip.StreamDecode

/-! # Byte accounting of the file loops

At every turn of `compress()` and `decompress()`, is what the loop writes what the coder produced?
The coder here keeps a ledger of its calls, so "produced" is a part of the state. The answer is yes
for every turn that starts with fewer than `2^31` bytes counted, and no for every other
(`keepsBooks_iff`). Nothing is assumed of the coder or of the input stream. -/

namespace IQzip

open Library

variable {σ : Type}

namespace FileLoop

/-- The turn from `l` calls the coder, and the call returns `AEC_OK`. -/
def Calls (api : Aec σ) (l : FileLoop σ) : Prop :=
  (l.inputAvail || l.outputAvail) = true
    ∧ ∃ strm out, api.code .noFlush l.refill.impl.dStrm l.refill.out = .ok (aecOk, strm, out)

/-- A turn that goes on has called the coder. -/
theorem calls_of_step {api : Aec σ} {l l' : FileLoop σ} (hstep : l.step api = .inl l') :
    l.Calls api := by
  unfold step at hstep
  split at hstep
  · next hgo =>
    -- an abort or a failed call would have left the loop
    cases hcode : api.code .noFlush l.refill.impl.dStrm l.refill.out with
    | error e =>
      simp only [hcode] at hstep
      cases hstep
    | ok result =>
      obtain ⟨status, strm, out⟩ := result
      simp only [hcode] at hstep
      split_ifs at hstep with herr
      have hok : status = aecOk := not_not.mp herr
      exact ⟨hgo, strm, out, by rw [hcode, hok]⟩
  · cases hstep

/-- **A turn that keeps its books.** The call of the turn adds `made` to the ledger; the length to
write is that of `made`, `output_avail` says whether there is any, and afterwards the output file
holds the whole ledger behind `base`. -/
def KeepsBooks (api : Aec σ) (fout : String) (base : List U8)
    (l : FileLoop (Coder.Ledger σ U8 U8)) : Prop :=
  ∃ led next made strm out l', l.impl.dStrm.state = some led
    ∧ api.recording.code .noFlush l.refill.impl.dStrm l.refill.out = .ok (aecOk, strm, out)
    ∧ strm.state = some next ∧ next.made = led.made ++ made
    ∧ writeLength strm.totalOut l.totalOut = made.length ∧ made.length ≤ chunk
    ∧ l.step api.recording = .inl l'
    ∧ (l'.outputAvail = true ↔ made ≠ [])
    ∧ l'.fs.content fout = some (base ++ next.made)

/-- **A flush that keeps its books**: when the flushing call of `compress()` returns `AEC_OK`, the
function returns 0 and the output file holds the whole ledger behind `base`. -/
def FlushKeepsBooks (api : Aec σ) (fout : String) (base : List U8)
    (l : FileLoop (Coder.Ledger σ U8 U8)) : Prop :=
  ∀ strm out, api.recording.code .flush l.impl.dStrm l.out = .ok (aecOk, strm, out) →
    ∃ c led fs', l.flush api.recording = .ok (0, c, fs') ∧ c.dStrm.state = some led
      ∧ fs'.content fout = some (base ++ led.made)

/-- The invariant of the loop over a recording coder: the counters agree with the ledger, what the
coder is offered is there, and a turn that produced nothing was below the bound. -/
structure Recorded (fout : String) (base : List U8) (l : FileLoop (Coder.Ledger σ U8 U8))
    (led : Coder.Ledger σ U8 U8) : Prop extends Counted fout base l led.made where
  state : l.impl.dStrm.state = some led
  offered : l.impl.dStrm.availIn ≤ l.impl.dStrm.nextIn.length
  quiet : l.outputAvail = false → led.made.length < 2 ^ 31

section Recorded

variable {api : Aec σ} {fout : String} {base : List U8} {l : FileLoop (Coder.Ledger σ U8 U8)}
  {led : Coder.Ledger σ U8 U8}

/-- Reading keeps the invariant. -/
theorem Recorded.refill (h : Recorded fout base l led) : Recorded fout base l.refill led := by
  refine ⟨h.toCounted.refill, ?_, ?_, ?_⟩
  · unfold FileLoop.refill
    split
    · exact h.state
    · exact h.state
  · unfold FileLoop.refill
    split
    · exact Nat.le_refl _
    · exact h.offered
  · unfold FileLoop.refill
    split
    · exact h.quiet
    · exact h.quiet

/-- The call of a turn. -/
def answer (api : Aec σ) (l : FileLoop (Coder.Ledger σ U8 U8)) (led : Coder.Ledger σ U8 U8) :
    Answer (Coder.Ledger σ U8 U8) U8 :=
  api.recording.coder.call led .noFlush l.refill.impl.dStrm.offered chunk

/-- A call of a turn that succeeds counts what it makes, which there is room for. -/
theorem answer_counts (hok : (l.answer api led).status = aecOk) :
    (l.answer api led).counted = (l.answer api led).produced.length
      ∧ (l.answer api led).produced.length ≤ chunk :=
  ⟨api.recording.coder.counted_eq _ _ _ _ hok, api.recording.coder.produced_le ..⟩

/-- What a turn calls the coder with. -/
theorem Recorded.code (h : Recorded fout base l led) :
    api.recording.code .noFlush l.refill.impl.dStrm l.refill.out
      = .ok ((l.answer api led).status, l.refill.impl.dStrm.after (l.answer api led),
          l.refill.out.splice 0 (l.answer api led).produced) := by
  have hread := h.refill
  have hroom : l.refill.impl.dStrm.nextOut + l.refill.impl.dStrm.availOut ≤ l.refill.out.size := by
    rw [hread.nextOut, hread.availOut, hread.outSize, Nat.zero_add]
  rw [Aec.code_eq_ok .noFlush hread.state hread.offered hroom, hread.availOut, hread.nextOut]
  rfl

/-- A turn that calls the coder has both its flag and its status. -/
theorem Recorded.calls_iff (h : Recorded fout base l led) :
    l.Calls api.recording
      ↔ (l.inputAvail || l.outputAvail) = true ∧ (l.answer api led).status = aecOk := by
  rw [Calls, h.code]
  simp

/-- **A turn below the bound** settles the call. -/
theorem Recorded.step_of_lt (h : Recorded fout base l led) (hcalls : l.Calls api.recording)
    (hlt : led.made.length < 2 ^ 31) :
    l.step api.recording = .inl (l.refill.settled fout
        (base ++ (led.made ++ (l.answer api led).produced)) (l.answer api led))
      ∧ Recorded fout base (l.refill.settled fout
          (base ++ (led.made ++ (l.answer api led).produced)) (l.answer api led))
        (l.answer api led).next := by
  obtain ⟨hgo, hok⟩ := h.calls_iff.mp hcalls
  obtain ⟨hcount, hmade⟩ := answer_counts hok
  constructor
  · rw [FileLoop.step, if_pos hgo]
    simp only [h.code]
    rw [if_neg (not_not_intro hok), h.refill.toCounted.account hcount hmade hlt]
  · refine ⟨h.refill.toCounted.settled hcount hmade hlt, rfl, ?_, ?_⟩
    · have := h.refill.offered
      simp only [settled, AecStream.after, List.length_drop]
      omega
    · intro hquiet
      -- the ledger has not grown in this turn
      have hnil : (l.answer api led).produced = [] := by simpa [settled] using hquiet
      have hnext : (l.answer api led).next.made = led.made ++ (l.answer api led).produced := rfl
      rwa [hnext, hnil, List.append_nil]

/-- **A turn at the bound** writes past its buffer. -/
theorem Recorded.step_of_ge (h : Recorded fout base l led) (hcalls : l.Calls api.recording)
    (hge : 2 ^ 31 ≤ led.made.length) : l.step api.recording = .inr (.error .outOfBounds) := by
  obtain ⟨hgo, hok⟩ := h.calls_iff.mp hcalls
  obtain ⟨hcount, hmade⟩ := answer_counts hok
  rw [FileLoop.step, if_pos hgo]
  simp only [h.code]
  rw [if_neg (not_not_intro hok), h.refill.toCounted.account_of_ge hcount hmade hge]

/-- What a turn that goes on keeps. -/
theorem Recorded.turn (h : Recorded fout base l led) {l' : FileLoop (Coder.Ledger σ U8 U8)}
    (hstep : l.step api.recording = .inl l') : ∃ led', Recorded fout base l' led' := by
  have hcalls := calls_of_step hstep
  by_cases hlt : led.made.length < 2 ^ 31
  · obtain ⟨hturn, hnext⟩ := h.step_of_lt hcalls hlt
    rw [hstep] at hturn
    cases hturn
    exact ⟨_, hnext⟩
  · rw [h.step_of_ge hcalls (by omega)] at hstep
    cases hstep

/-- **One turn keeps its books exactly below the bound.** -/
theorem Recorded.turn_keepsBooks (h : Recorded fout base l led) (hcalls : l.Calls api.recording) :
    l.KeepsBooks api fout base ↔ led.made.length < 2 ^ 31 := by
  constructor
  · rintro ⟨_, _, _, _, _, l', -, -, -, -, -, -, hstep, -, -⟩
    -- at the bound there is no next head, as the turn aborts
    by_contra hge
    rw [h.step_of_ge hcalls (by omega)] at hstep
    cases hstep
  · intro hlt
    obtain ⟨hstep, hnext⟩ := h.step_of_lt hcalls hlt
    obtain ⟨-, hok⟩ := h.calls_iff.mp hcalls
    obtain ⟨hcount, hmade⟩ := answer_counts hok
    have hcode : api.recording.code .noFlush l.refill.impl.dStrm l.refill.out = _ := h.code
    rw [hok] at hcode
    refine ⟨led, _, (l.answer api led).produced, _, _, _, h.state, hcode, rfl, rfl, ?_, hmade,
      hstep, ?_, hnext.file⟩
    · rw [h.counter, ← h.refill.counter]
      exact h.refill.toCounted.writeLength_after hcount hmade hlt
    · simp [settled]

/-- The flushing call that follows the loop of `compress()`. -/
def lastAnswer (api : Aec σ) (l : FileLoop (Coder.Ledger σ U8 U8)) (led : Coder.Ledger σ U8 U8) :
    Answer (Coder.Ledger σ U8 U8) U8 :=
  api.recording.coder.call led .flush l.impl.dStrm.offered chunk

/-- What the flush calls the coder with. -/
theorem Recorded.flush_code (h : Recorded fout base l led) :
    api.recording.code .flush l.impl.dStrm l.out
      = .ok ((l.lastAnswer api led).status, l.impl.dStrm.after (l.lastAnswer api led),
          l.out.splice 0 (l.lastAnswer api led).produced) := by
  have hroom : l.impl.dStrm.nextOut + l.impl.dStrm.availOut ≤ l.out.size := by
    rw [h.nextOut, h.availOut, h.outSize, Nat.zero_add]
  rw [Aec.code_eq_ok .flush h.state h.offered hroom, h.availOut, h.nextOut]
  rfl

/-- **After the loop the flush keeps the books**: the last turn produced nothing, so it was below
the bound, and no byte has been counted since. -/
theorem Recorded.flush_keepsBooks (h : Recorded fout base l led)
    (hstop : (l.inputAvail || l.outputAvail) = false) : l.FlushKeepsBooks api fout base := by
  intro strm out hcode
  rw [h.flush_code] at hcode
  have hok : (l.lastAnswer api led).status = aecOk := congrArg Prod.fst (Except.ok.inj hcode)
  have hcount : (l.lastAnswer api led).counted = (l.lastAnswer api led).produced.length :=
    api.recording.coder.counted_eq _ _ _ _ hok
  have hmade : (l.lastAnswer api led).produced.length ≤ chunk :=
    api.recording.coder.produced_le ..
  have hquiet : l.outputAvail = false := (Bool.or_eq_false_iff.mp hstop).2
  exact ⟨_, (l.lastAnswer api led).next, _, h.toCounted.flush h.flush_code hok hcount hmade
    (h.quiet hquiet), rfl, FileSystem.content_put_self ..⟩

end Recorded

/-- What a successful init leaves of the stream and the output starts with an empty ledger. -/
theorem recorded_start {c : IqzipImpl (Coder.Ledger σ U8 U8)} {fs : FileSystem} {fout : String}
    {base : List U8} {s₀ : σ} (cell : Nat → U8)
    (hstrm : c.dStrm = initStream c.config (some (.start s₀)))
    (hout : c.outputStream = .opened fout false) (hfile : fs.content fout = some base) :
    Recorded fout base (start c fs { size := chunk, cell := cell }) (.start s₀) where
  output := hout
  file := hfile.trans (by rw [Coder.Ledger.start, List.append_nil])
  nextOut := rfl
  availOut := by simp only [start, hstrm, initStream, freshStream]
  outSize := rfl
  totalOut := by
    simp only [start, hstrm, initStream, freshStream, Coder.Ledger.start, List.length_nil]
  counter := intOfSize_zero.symm
  small := Nat.two_pow_pos 32
  state := by simp only [start, hstrm, initStream]
  offered := by simp only [start, hstrm, initStream, freshStream, List.length_nil, Nat.le_refl]
  quiet := nofun

/-- **Every head of the loop is recorded.** -/
theorem recorded_of_loops {api : Aec σ} {fout : String} {base : List U8}
    {l l' : FileLoop (Coder.Ledger σ U8 U8)} {led : Coder.Ledger σ U8 U8}
    (h : Recorded fout base l led) (hloops : Loops (step api.recording) l l') :
    ∃ led', Recorded fout base l' led' :=
  hloops.invariant (fun l => ∃ led, Recorded fout base l led)
    (fun _ _ ⟨_, h⟩ hstep => h.turn hstep) ⟨led, h⟩

/-- **Byte accounting.** The file loop of either direction, over a coder that keeps a ledger, from
what a successful init leaves of the stream and the output: a fresh stream, and `base` in the file
`fout`. At every head of the loop the file holds the whole ledger behind `base`; a turn keeps its
books exactly when it starts with fewer than `2^31` bytes in `d_strm.total_out`; and when both flags
are down, the flush of `compress()` keeps its books. The stream is open all the time, so what the
file holds is its logical content. -/
theorem keepsBooks_iff (api : Aec σ) {c : IqzipImpl (Coder.Ledger σ U8 U8)} {fs : FileSystem}
    {fout : String} {base : List U8} {s₀ : σ} (cell : Nat → U8)
    (hstrm : c.dStrm = initStream c.config (some (.start s₀)))
    (hout : c.outputStream = .opened fout false) (hfile : fs.content fout = some base)
    {l : FileLoop (Coder.Ledger σ U8 U8)}
    (hloops : Loops (step api.recording) (start c fs { size := chunk, cell := cell }) l) :
    (∃ led, l.impl.dStrm.state = some led ∧ l.fs.content fout = some (base ++ led.made))
      ∧ (l.Calls api.recording
        → (l.KeepsBooks api fout base ↔ l.impl.dStrm.totalOut < 2 ^ 31))
      ∧ ((l.inputAvail || l.outputAvail) = false → l.FlushKeepsBooks api fout base) := by
  obtain ⟨led, h⟩ := recorded_of_loops (recorded_start cell hstrm hout hfile) hloops
  refine ⟨⟨led, h.state, h.file⟩, fun hcalls => ?_, h.flush_keepsBooks⟩
  rw [h.turn_keepsBooks hcalls, h.totalOut]

/-! ## A payload past the bound -/

/-- A decompressor that has opened `eightSamplesFile`, over a coder that keeps a ledger. -/
def openedEightSamples : IqzipImpl (Coder.Ledger (Given U8) U8 U8) :=
  ((DecompressorImpl.construct (zeroStorage _)).opened "in.iqz" "out" 14 eightSamplesHeader
    (some (.start Given.start))).toIqzipImpl

/-- Its files. -/
def eightSamplesFiles : FileSystem :=
  (FileSystem.empty.put "in.iqz" eightSamplesFile).put "out" []

/-- The first turn on `eightSamplesFile` keeps its books. -/
theorem keepsBooks_eightSamples :
    (start openedEightSamples eightSamplesFiles { size := chunk, cell := fun _ => 0 }).KeepsBooks
      (.ofFunctions eightSamplesDecode eightSamplesDecode) "out" [] := by
  have hrec : Recorded "out" []
      (start openedEightSamples eightSamplesFiles { size := chunk, cell := fun _ => 0 })
      (.start Given.start) :=
    recorded_start (fun _ => 0) rfl rfl (FileSystem.content_put_self ..)
  have hcalls : (start openedEightSamples eightSamplesFiles
      { size := chunk, cell := fun _ => 0 }).Calls
      (Aec.ofFunctions eightSamplesDecode eightSamplesDecode).recording :=
    hrec.calls_iff.mpr ⟨rfl, rfl⟩
  exact ((keepsBooks_iff _ (fun _ => 0) rfl rfl (FileSystem.content_put_self ..) .refl).2.1
    hcalls).mpr (Nat.two_pow_pos 31)

/-- A payload that expands to more than `2^31` bytes. -/
def hugePayload : List U8 := List.replicate 131200 0

/-- A file with the header of `eightSamples` and the huge payload. -/
def hugeFile : List U8 := (zeroedHeader byteConfig).headerBytes ++ hugePayload

/-- The decoder of the huge payload, with a ledger. -/
abbrev hugeDecoder : Aec (Coder.Ledger (Given U8) U8 U8) :=
  (Aec.ofFunctions expand expand).recording

/-- A new decompressor. -/
abbrev hugeDecompressor : DecompressorImpl (Coder.Ledger (Given U8) U8 U8) :=
  .construct (zeroStorage _)

/-- The header the decompressor reads from `hugeFile`. -/
def hugeHeader : IqzipCompressionHeader :=
  (hugeDecompressor.dCcsdsCipHdr.parseBuffer (hugeFile.take 18)).2

theorem length_hugePayload : hugePayload.length = 131200 := List.length_replicate

/-- The decompressor after `decompress_init` on `hugeFile`. -/
def openedHuge : DecompressorImpl (Coder.Ledger (Given U8) U8 U8) :=
  hugeDecompressor.opened "in.iqz" "out" 14 hugeHeader (some (.start Given.start))

/-- The files then. -/
def hugeFiles : FileSystem := (FileSystem.empty.put "in.iqz" hugeFile).put "out" []

/-- **The loop on `hugeFile` comes to a turn past the bound**, and the turn calls the coder. -/
theorem hugeFile_crosses :
    ∃ l led, Loops (step hugeDecoder)
        (start openedHuge.toIqzipImpl hugeFiles { size := chunk, cell := fun _ => 0 }) l
      ∧ Recorded "out" [] l led ∧ l.Calls hugeDecoder ∧ 2 ^ 31 ≤ led.made.length := by
  have hfile : (FileSystem.empty.put "in.iqz" hugeFile).content "in.iqz" = some hugeFile :=
    FileSystem.content_put_self ..
  have hne : "in.iqz" ≠ "out" := by decide
  obtain ⟨hopen, hsource⟩ := hugeDecompressor.opened_represents 14 hugeHeader
    (.start Given.start) hfile hne
  have hpayload : hugeFile.drop 14 = hugePayload := List.drop_left' (by decide)
  have hrep := hopen.represents fun _ => 0
  rw [hsource, hpayload] at hrep
  -- the decoder on its own would write everything the payload determines
  have hchunk := chunk_eq
  have hpaced : (hugeDecoder.coder).Paced chunk (.start Given.start) hugePayload 1 1 expand :=
    (Coder.eager_paced expand_mono).recording
  obtain ⟨p, ⟨last, hloops, hleave⟩, -, -, hwritten, -⟩ := Pump.exists_exits_emit hpaced Nat.one_pos
    (by omega) (Coder.eager_accepts _ _).recording (Nat.one_dvd _) (Or.inl (Nat.one_dvd _))
  obtain rfl := Pump.eq_of_step_zero hleave
  have hpast : 2 ^ 31 ≤ p.written.length := by
    rw [hwritten, length_expand, length_hugePayload]
    decide
  obtain ⟨l, p', hl, hrep', -, hge, hflag⟩ := hrep.crosses hne (Nat.two_pow_pos 31) hloops hpast
  obtain ⟨led, hrec⟩ := recorded_of_loops
    (recorded_start (fun _ => 0) rfl rfl (FileSystem.content_put_self ..)) hl
  have hgo : (l.inputAvail || l.outputAvail) = true := by
    rw [hrep'.outputAvail, hflag, Bool.or_true]
  have hmade : led.made.length = p'.written.length := by rw [← hrec.totalOut, hrep'.totalOut]
  exact ⟨l, led, hl, hrec, hrec.calls_iff.mpr ⟨hgo, rfl⟩, by rwa [hmade]⟩

/-- **The `int` copy overflows.** On the huge file `decompress_init` succeeds and the loop comes to
a turn that does not keep its books. -/
theorem books_overflow_hugeFile :
    hugeDecompressor.decompressInit hugeDecoder (FileSystem.empty.put "in.iqz" hugeFile) "in.iqz"
        "out" = .ok (aecOk, openedHuge, hugeFiles)
      ∧ ∃ l, Loops (step hugeDecoder)
          (start openedHuge.toIqzipImpl hugeFiles { size := chunk, cell := fun _ => 0 }) l
        ∧ l.Calls hugeDecoder ∧ ¬ l.KeepsBooks (.ofFunctions expand expand) "out" [] := by
  have hlen : IqzipCompressionHeader.maxHeaderSize ≤ hugeFile.length := by
    rw [hugeFile, List.length_append, length_hugePayload]
    exact Nat.le_trans (by decide) (Nat.le_add_left ..)
  have hparse : hugeDecompressor.dCcsdsCipHdr.parseBuffer (hugeFile.take 18) = (14, hugeHeader) :=
    Prod.ext (by decide) rfl
  refine ⟨DecompressorImpl.decompressInit_eq rfl rfl (FileSystem.content_put_self ..) hlen rfl
    hparse, ?_⟩
  obtain ⟨l, led, hl, hrec, hcalls, hge⟩ := hugeFile_crosses
  refine ⟨l, hl, hcalls, ?_⟩
  rw [hrec.turn_keepsBooks hcalls]
  omega

end FileLoop

end IQzip
