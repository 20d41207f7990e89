import IQzip.Frame
import IQzip.StreamAgreement

/-! # Sessions on one compressor

A caller may use one compressor for many sessions. `compress_init` and `stream_compress_init` set up
the coder again, but they rely on what the last session left of the rest: the two file streams, the
bytes buffered for the next block and the count of bytes written. `Clean` is what they rely on, and
`session_isolated` is that a session on a clean object writes what it writes on a new one, after any
sessions whatever.

The input files may change between sessions, so a run of sessions fixes the objects only. -/

namespace IQzip

open Library

variable {σ : Type}

/-- A complete session of the file functions or of the streaming functions. `cell` is what the
memory of the output buffer of `compress` holds. -/
inductive Session
  | file (fin fout : String) (cell : Nat → U8)
  | stream (fout : String) (bufs : List InBuf)

namespace CodecImpl

/-- The session returns, with this object and these files. -/
def Runs (api : Aec σ) (c : CodecImpl σ) (fs : FileSystem) :
    Session → CodecImpl σ → FileSystem → Prop
  -- the file functions see the base class only, and the rest of the object stays
  | .file fin fout cell, c', fs' => ∃ status base,
      Returns (fun fuel => c.compressFile api fuel cell fs fin fout) (.ok (status, base, fs'))
        ∧ c' = { c with toIqzipImpl := base }
  | .stream fout bufs, c', fs' =>
      ∃ status, c.streamCompressSession api fs fout bufs = .ok (status, c', fs')

/-- The files a session leaves. -/
def Writes (api : Aec σ) (c : CodecImpl σ) (fs : FileSystem) (s : Session) (fs' : FileSystem) :
    Prop :=
  ∃ c', c.Runs api fs s c' fs'

/-- Sessions in order, each on whatever files there are. -/
inductive RunsAll (api : Aec σ) : CodecImpl σ → List Session → CodecImpl σ → Prop
  | nil (c : CodecImpl σ) : RunsAll api c [] c
  | cons {c c' c'' : CodecImpl σ} {s : Session} {sessions : List Session} {fs fs' : FileSystem} :
      c.Runs api fs s c' fs' → RunsAll api c' sessions c'' → RunsAll api c (s :: sessions) c''

/-- What a session relies on: closed streams, and for the streaming functions no bytes buffered and
none counted. -/
def Clean (c : CodecImpl σ) : Session → Prop
  | .file .. => c.inputStream = .closed ∧ c.outputStream = .closed
  | .stream .. => c.outputStream = .closed ∧ c.dStreamAvailIn = 0 ∧ c.dTotalOut = 0

/-! ## What sessions keep -/

section Run

variable {api : Aec σ} {c c' d : CodecImpl σ} {fs fs' : FileSystem} {fin fout : String}
  {bufs : List InBuf} {s : Session}

/-- A session keeps the configuration and the buffers. -/
theorem Runs.keeps (h : c.Runs api fs s c' fs') : c.Keeps c' := by
  cases s with
  | file fin fout cell =>
    obtain ⟨status, base, ⟨n, hn⟩, rfl⟩ := h
    exact .of_base (IqzipImpl.compressFile_keeps (hn n (Nat.le_refl n))) rfl rfl
  | stream fout bufs =>
    obtain ⟨status, hrun⟩ := h
    exact streamCompressSession_keeps hrun

/-- **Run rule.** Whatever the sessions were, the object keeps its header, its scalar members and
the sizes of its buffers. -/
theorem RunsAll.keeps {sessions : List Session} (h : RunsAll api c sessions c') : c.Keeps c' := by
  induction h with
  | nil c => exact .refl c
  | cons hrun _ ih => exact hrun.keeps.trans ih

/-! ## File sessions -/

/-- After the coder's init nothing is left of the old stream. -/
theorem initCoder_congr (hkeeps : c.Keeps d) (hin : d.inputStream = c.inputStream)
    (hout : d.outputStream = c.outputStream) :
    d.toIqzipImpl.initCoder api = c.toIqzipImpl.initCoder api := by
  have hheader := hkeeps.header
  have hconfig := hkeeps.config
  simp only [IqzipImpl.initCoder, IqzipImpl.initAecStream, hheader, hconfig, hin, hout]

/-- A file session depends on the header, the scalar members and the file streams only. -/
theorem compressFile_congr (hkeeps : c.Keeps d) (hin : d.inputStream = c.inputStream)
    (hout : d.outputStream = c.outputStream) (fuel : Nat) (cell : Nat → U8) :
    d.compressFile api fuel cell fs fin fout = c.compressFile api fuel cell fs fin fout := by
  have hconfig := hkeeps.config
  have hinit : d.compressInit api fs fin fout = c.compressInit api fs fin fout := by
    simp only [IqzipImpl.compressInit, initCoder_congr hkeeps hin hout, IqzipImpl.initAecStream,
      hconfig]
  simp only [IqzipImpl.compressFile, hinit]

/-! ## Streaming sessions -/

/-- The state after an init is what the coder gave. -/
theorem streamCompressInit_state {status : Int}
    (h : c.streamCompressInit api fs fout = .ok (status, c', fs')) :
    c'.dStrm.state = (api.init (aecParamsOf c.config)).2 := by
  unfold streamCompressInit at h
  dsimp only at h
  split at h
  · cases h
  · split_ifs at h
    · cases h
      rfl
    · cases h
      rfl

/-- Without a coder state a call of the coder aborts. -/
theorem codeStream_of_none (api : Aec σ) (c : CodecImpl σ) (hs : c.dStrm.state = none)
    (mode : FlushMode) : c.codeStream api mode = .error .nullCoderState := by
  rw [codeStream, Aec.code_of_state_none mode (show c.readyStream.state = none from hs)]

/-- So does a block. -/
theorem streamBlock_of_none (api : Aec σ) (fs : FileSystem) (hs : c.dStrm.state = none)
    (inbuf : List U8) : ∃ e, c.streamBlock api fs inbuf = .error e := by
  unfold streamBlock
  split
  · exact ⟨_, rfl⟩
  · next tmp _ =>
    rw [codeStream_of_none api { c with dTmpStream := tmp, dStreamAvailIn := streamChunk } hs]
    exact ⟨_, rfl⟩

/-- What returns without a coder state has only buffered. -/
theorem streamCode_of_none (hs : c.dStrm.state = none) {inbuf : InBuf} {status : Int}
    (h : c.streamCode api fs inbuf = .ok (status, c', fs')) : c'.dStrm.state = none := by
  unfold streamCode at h
  dsimp only at h
  split_ifs at h
  · split at h
    · cases h
    · cases h
      exact hs
  · -- a full block would call the coder, so only the leftover branch returns
    rw [streamLoop] at h
    split_ifs at h
    · obtain ⟨e, hblock⟩ := streamBlock_of_none api fs hs inbuf.bytes
      rw [hblock] at h
      cases h
    · unfold streamRest at h
      split_ifs at h
      · split at h
        · cases h
        · cases h
          exact hs
      · cases h
        exact hs

/-- Without a coder state there is none afterwards. -/
theorem streamCodeAll_of_none (hs : c.dStrm.state = none)
    (h : c.streamCodeAll api fs bufs = .ok (c', fs')) : c'.dStrm.state = none := by
  induction bufs generalizing c fs with
  | nil =>
    cases h
    exact hs
  | cons inbuf bufs ih =>
    unfold streamCodeAll at h
    split at h
    · cases h
    · next hcode => exact ih (streamCode_of_none hs hcode) h

/-- Without a coder state a session does not return. -/
theorem streamCompressSession_of_none (hinit : (api.init (aecParamsOf c.config)).2 = none)
    (result : Int × CodecImpl σ × FileSystem) :
    c.streamCompressSession api fs fout bufs ≠ .ok result := by
  intro h
  unfold streamCompressSession at h
  split at h
  · cases h
  · next hopen =>
    have hs := (streamCompressInit_state hopen).trans hinit
    split at h
    · cases h
    · next hcode =>
      have hlast := streamCodeAll_of_none hs hcode
      unfold streamCompressFin streamFin at h
      rw [codeStream_of_none api _ hlast] at h
      cases h

/-- Neither does it when the header cannot be written. -/
theorem streamCompressSession_of_unwritable (hw : ¬ fs.writable fout = true)
    (result : Int × CodecImpl σ × FileSystem) :
    c.streamCompressSession api fs fout bufs ≠ .ok result := by
  unfold streamCompressSession streamCompressInit IqzipCompressionHeader.writeHeaderToFile
  simp only [if_neg hw]
  exact nofun

/-- **What a streaming session writes**, when the streams are closed and nothing is counted: what a
rechunker that carries the buffered bytes makes of the buffers. -/
theorem streamCompressSession_files {s₀ : σ} (bufs : List InBuf) (silent : api.FailsSilently)
    (hout : c.outputStream = .closed) (hw : fs.writable fout = true)
    (havail : c.dStreamAvailIn ≤ streamChunk) (htotal : c.dTotalOut = 0)
    (htmp : streamChunk ≤ c.dTmpStream.size) (hsize : c.dOut.size = chunk)
    (hinit : (api.init (aecParamsOf c.config)).2 = some s₀) :
    ∃ status c', c.streamCompressSession api fs fout bufs
      = .ok (status, c', fs.put fout (c.dCcsdsCipHdr.headerBytes
        ++ (Rechunker.pushes api.coder streamChunk chunk
          { state := s₀, carry := c.dTmpStream.load 0 c.dStreamAvailIn, written := [] }
          (bufs.map InBuf.bytes)).finish api.coder .flush chunk)) := by
  obtain ⟨c₁, hopen, hstart⟩ := streamCompressInit_resumes hout hw havail htotal htmp hsize hinit
  have hgood : Rechunker.PushesOk api.coder streamChunk chunk
      { state := s₀, carry := c.dTmpStream.load 0 c.dStreamAvailIn, written := [] }
      (bufs.map InBuf.bytes) ∨ api.FailsSilently := Or.inr silent
  obtain ⟨c₂, fs₂, hcode, hrep⟩ := hstart.streamCodeAll hgood
  obtain ⟨status, c₃, hend⟩ := hrep.streamFin_files api .flush
  refine ⟨status, c₃, ?_⟩
  simp only [streamCompressSession, hopen, hcode, streamCompressFin, hend, FileSystem.put_put]

/-- With nothing buffered, that is all there is to know about the files. -/
theorem writes_stream_iff {s₀ : σ} (silent : api.FailsSilently) (hout : c.outputStream = .closed)
    (hw : fs.writable fout = true) (havail : c.dStreamAvailIn = 0) (htotal : c.dTotalOut = 0)
    (htmp : streamChunk ≤ c.dTmpStream.size) (hsize : c.dOut.size = chunk)
    (hinit : (api.init (aecParamsOf c.config)).2 = some s₀) :
    c.Writes api fs (.stream fout bufs) fs'
      ↔ fs' = fs.put fout (c.dCcsdsCipHdr.headerBytes
        ++ ((Rechunker.start s₀).pushes api.coder streamChunk chunk
          (bufs.map InBuf.bytes)).finish api.coder .flush chunk) := by
  obtain ⟨status, c', hrun⟩ := streamCompressSession_files bufs silent hout hw
    (by rw [havail]; exact Nat.zero_le _) htotal htmp hsize hinit
  rw [havail, Buffer.load_zero] at hrun
  constructor
  · rintro ⟨c'', status', hrun'⟩
    rw [hrun] at hrun'
    cases hrun'
    rfl
  · rintro rfl
    exact ⟨c', status, hrun⟩

end Run

/-! ## Isolation -/

/-- **Sessions on a clean object are isolated.** Libaec fails silently and the sample resolution is
at least 1. After any sessions on a compressor, whatever they returned, a session that finds its
object clean leaves the files that it leaves on a new compressor of the same configuration. -/
theorem session_isolated {api : Aec σ} (silent : api.FailsSilently) {cfg : Config}
    (hres : 1 ≤ cfg.sampleResolution) {storage storage' : ObjectStorage σ}
    (hheader : storage'.header = storage.header) {sessions : List Session} {c : CodecImpl σ}
    (hrun : RunsAll api (CompressorImpl.construct storage cfg) sessions c) {s : Session}
    (hclean : c.Clean s) (fs fs' : FileSystem) :
    c.Writes api fs s fs' ↔ (CompressorImpl.construct storage' cfg).Writes api fs s fs' := by
  -- header, scalar members and buffer sizes are those of any new object
  have hkeeps : (CompressorImpl.construct storage' cfg).Keeps c := by
    have h := hrun.keeps
    refine ⟨⟨?_, h.config⟩, h.tmpSize, h.outSize⟩
    rw [h.header]
    simp only [CompressorImpl.construct, hheader]
  cases s with
  | file fin fout cell =>
    have hcongr : ∀ fuel, c.compressFile api fuel cell fs fin fout
        = (CompressorImpl.construct storage' cfg).compressFile api fuel cell fs fin fout :=
      fun fuel => compressFile_congr hkeeps hclean.1 hclean.2 fuel cell
    simp only [Writes, Runs, hcongr]
    constructor
    · rintro ⟨_, status, base, hreturns, -⟩
      exact ⟨_, status, base, hreturns, rfl⟩
    · rintro ⟨_, status, base, hreturns, -⟩
      exact ⟨_, status, base, hreturns, rfl⟩
  | stream fout bufs =>
    obtain ⟨hout, havail, htotal⟩ := hclean
    have htmp : streamChunk ≤ (CompressorImpl.construct storage' cfg).dTmpStream.size :=
      Nat.le_mul_of_pos_left _ (by bv_omega)
    have hconfig : c.config = cfg := hkeeps.config
    -- a path that cannot be written or a coder without a state: neither object returns
    by_cases hw : fs.writable fout = true
    · cases hinit : (api.init (aecParamsOf cfg)).2 with
      | none =>
        constructor
        · rintro ⟨_, status, hrun⟩
          exact absurd hrun (streamCompressSession_of_none (by rw [hconfig, hinit]) _)
        · rintro ⟨_, status, hrun⟩
          exact absurd hrun (streamCompressSession_of_none hinit _)
      | some s₀ =>
        rw [writes_stream_iff silent hout hw havail htotal (by rw [hkeeps.tmpSize]; exact htmp)
            (by rw [hkeeps.outSize]; rfl) (by rw [hconfig, hinit]),
          writes_stream_iff silent rfl hw rfl rfl htmp rfl hinit, hkeeps.header]
    · constructor
      · rintro ⟨_, status, hrun⟩
        exact absurd hrun (streamCompressSession_of_unwritable hw _)
      · rintro ⟨_, status, hrun⟩
        exact absurd hrun (streamCompressSession_of_unwritable hw _)

/-! ## What makes a session clean -/

section End

variable {api : Aec σ} {c c' : CodecImpl σ} {fs fs' : FileSystem} {mode : FlushMode}

/-- A `fin` that returns 0 has closed both streams. -/
theorem fin_closes {b b' : IqzipImpl σ} (h : b.fin api fs = .ok (0, b', fs')) :
    b'.inputStream = .closed ∧ b'.outputStream = .closed := by
  unfold IqzipImpl.fin at h
  split at h
  · cases h
  · split_ifs at h with herr
    · -- the early return keeps the status, which is not zero
      simp only [Except.ok.injEq, Prod.mk.injEq] at h
      exact absurd h.1 herr
    · cases h
      exact ⟨rfl, rfl⟩

/-- **A file session that returns 0 leaves its object clean**, if nothing was buffered or
counted. -/
theorem clean_of_file {fin fout : String} {cell : Nat → U8} {base : IqzipImpl σ}
    (hreturns : Returns (fun fuel => c.compressFile api fuel cell fs fin fout) (.ok (0, base, fs')))
    (havail : c.dStreamAvailIn = 0) (htotal : c.dTotalOut = 0) (s : Session) :
    Clean { c with toIqzipImpl := base } s := by
  have hclosed : base.inputStream = .closed ∧ base.outputStream = .closed := by
    obtain ⟨n, hn⟩ := hreturns
    have h := hn n (Nat.le_refl n)
    unfold IqzipImpl.compressFile at h
    split at h
    · cases h
    · obtain ⟨result, -, hend⟩ := Option.map_eq_some_iff.mp h
      split at hend
      · cases hend
      · exact fin_closes hend
  cases s with
  | file => exact hclosed
  | stream => exact ⟨hclosed.2, havail, htotal⟩

/-- **`stream_compress_fin` clears neither the buffered bytes nor the count.** -/
theorem streamFin_leaves {status : Int} (h : c.streamFin api mode fs = .ok (status, c', fs')) :
    c'.dTmpStream = c.dTmpStream ∧ c'.dStreamAvailIn = c.dStreamAvailIn
      ∧ c'.dTotalOut = c.dTotalOut := by
  have hcode : ∀ status d, c.codeStream api mode = .ok (status, d) → d.dTmpStream = c.dTmpStream
      ∧ d.dStreamAvailIn = c.dStreamAvailIn ∧ d.dTotalOut = c.dTotalOut := by
    intro status d h
    unfold codeStream at h
    split at h
    · cases h
    · cases h
      exact ⟨rfl, rfl, rfl⟩
  unfold streamFin at h
  split at h
  · cases h
  · next hcoded =>
    split_ifs at h
    · cases h
      exact hcode _ _ hcoded
    · split at h
      · cases h
      · next hwrite =>
        split at h
        · cases h
        · obtain ⟨htmp, havail, htotal⟩ := hcode _ _ hcoded
          have hwritten := writeProduced_eq hwrite
          cases h
          exact ⟨(congrArg dTmpStream hwritten).trans htmp,
            (congrArg dStreamAvailIn hwritten).trans havail,
            (congrArg CodecImpl.dTotalOut hwritten).trans htotal⟩

/-- A `stream_compress_fin` that returns 0 has closed the output file. -/
theorem streamFin_closes (h : c.streamFin api mode fs = .ok (0, c', fs')) :
    c'.outputStream = .closed := by
  unfold streamFin at h
  split at h
  · cases h
  · split_ifs at h
    · simp only [Except.ok.injEq, Prod.mk.injEq] at h
      omega
    · split at h
      · cases h
      · split at h
        · cases h
        · next hfin =>
          simp only [Except.ok.injEq, Prod.mk.injEq] at h
          obtain ⟨rfl, rfl, rfl⟩ := h
          exact (fin_closes hfin).2

/-- A buffer that fills no block counts nothing. -/
theorem streamCode_of_lt {inbuf : InBuf} {status : Int}
    (hlt : sizeAdd c.dStreamAvailIn inbuf.bytes.length < streamChunk)
    (h : c.streamCode api fs inbuf = .ok (status, c', fs')) : c'.dTotalOut = c.dTotalOut := by
  unfold streamCode at h
  simp only [if_pos hlt] at h
  split at h
  · cases h
  · cases h
    rfl

end End

/-! ## Two sessions that are not isolated -/

/-- One byte in a buffer. -/
def oneByte (b : U8) : InBuf := { bytes := [b], bounded := Nat.one_lt_two_pow (by decide) }

/-- An encoder that copies its input. -/
abbrev copying : Aec (Given U8) := .ofFunctions id id

/-- A compressor at the tool's configuration for bytes. -/
abbrev byteCompressor : CodecImpl (Given U8) := CompressorImpl.construct (zeroStorage _) byteConfig

/-- After any file sessions that returned 0, here one on `eightSamples`, every session is
isolated. -/
theorem session_isolated_eightSamples :
    ∃ c, RunsAll eightSamplesEncoder byteCompressor [.file "in" "out.iqz" (fun _ => 0)] c
      ∧ ∀ fs fs', c.Writes eightSamplesEncoder fs (.stream "b.iqz" [eightSamplesBuffer]) fs'
        ↔ byteCompressor.Writes eightSamplesEncoder fs (.stream "b.iqz" [eightSamplesBuffer])
          fs' := by
  obtain ⟨base, hfile⟩ : ∃ base, Returns (fun fuel => byteCompressor.compressFile
      eightSamplesEncoder fuel (fun _ => 0) (FileSystem.empty.put "in" eightSamples) "in" "out.iqz")
      (.ok (0, base, _)) :=
    compressFile_feeds (fun _ => 0) rfl eightSamplesEncoder_feeds (fun _ => rfl) (by decide) rfl rfl
      (FileSystem.content_put_self ..) (by decide) rfl
  have hrun : RunsAll eightSamplesEncoder byteCompressor [.file "in" "out.iqz" (fun _ => 0)]
      { byteCompressor with toIqzipImpl := base } := .cons ⟨0, base, hfile, rfl⟩ (.nil _)
  have silent : eightSamplesEncoder.FailsSilently := fun _ _ herr => absurd rfl herr
  exact ⟨_, hrun, fun fs fs' => session_isolated silent (by decide) rfl hrun
    (clean_of_file hfile rfl rfl _) fs fs'⟩

/-- The first session buffers its byte, flushes it and keeps it. -/
theorem first_session :
    ∃ c fs', byteCompressor.Runs copying .empty (.stream "a.iqz" [oneByte 1]) c fs'
      ∧ fs'.writable "b.iqz" = true ∧ c.outputStream = .closed ∧ c.dTotalOut = 0
      ∧ c.dStreamAvailIn = 1 ∧ c.dTmpStream.load 0 1 = [1] := by
  have silent : copying.FailsSilently := fun _ _ herr => absurd rfl herr
  -- the object after `stream_compress_init`
  let c₁ : CodecImpl (Given U8) :=
    { byteCompressor with
      dStrm := initStream byteCompressor.config (some Given.start)
      outputStream := .opened "a.iqz" false }
  have hopen : byteCompressor.streamCompressInit copying .empty "a.iqz" = .ok (aecOk, c₁, _) :=
    streamCompressInit_eq rfl rfl
  have hstart : Represents _ "a.iqz" byteCompressor.dCcsdsCipHdr.headerBytes c₁ _
      (Rechunker.start Given.start) :=
    represents_start .empty _ rfl rfl rfl rfl (by decide) rfl
  obtain ⟨c₂, fs₂, hcode, hnext⟩ := hstart.streamCode copying (oneByte 1)
  have hrep := hnext (Or.inr silent)
  rw [Rechunker.push_of_lt (by decide)] at hcode hrep
  have hlt : sizeAdd c₁.dStreamAvailIn (oneByte 1).bytes.length < streamChunk := by decide
  have hcount : c₂.dTotalOut = 0 := streamCode_of_lt hlt hcode
  have havail : c₂.dStreamAvailIn = 1 := hrep.length_carry.symm
  have hcarry : c₂.dTmpStream.load 0 1 = [1] := by
    rw [← havail]
    exact hrep.carry
  have hok : (copying.coder.call (Given.start : Given U8) .flush [1] chunk).status = 0 := rfl
  obtain ⟨c₃, fs₃, hend, hw⟩ : ∃ c fs, c₂.streamFin copying .flush fs₂ = .ok (0, c, fs)
      ∧ fs.writable "b.iqz" = true := by
    obtain ⟨c, hend⟩ := hrep.streamFin .flush hok rfl
    exact ⟨c, _, hend, rfl⟩
  obtain ⟨htmp, hkept, htotal⟩ := streamFin_leaves hend
  refine ⟨c₃, fs₃, ⟨0, ?_⟩, hw, streamFin_closes hend, htotal.trans hcount, hkept.trans havail,
    by rw [htmp, hcarry]⟩
  simp only [streamCompressSession, hopen, streamCodeAll, hcode, streamCompressFin, hend]

/-- **The second session repeats the byte of the first.** Two streaming sessions of one byte each on
one object: the second output file has both bytes, that of a new compressor only the second. -/
theorem session_residue :
    ∃ c fs', byteCompressor.Runs copying .empty (.stream "a.iqz" [oneByte 1]) c fs'
      ∧ ∃ both second,
        (∃ fs'', c.Writes copying fs' (.stream "b.iqz" [oneByte 2]) fs''
          ∧ fs''.content "b.iqz" = some both)
        ∧ (∃ fs'', byteCompressor.Writes copying fs' (.stream "b.iqz" [oneByte 2]) fs''
          ∧ fs''.content "b.iqz" = some second)
        ∧ both ≠ second := by
  have silent : copying.FailsSilently := fun _ _ herr => absurd rfl herr
  obtain ⟨c, fs', hrun, hw, hout, htotal, havail, hcarry⟩ := first_session
  have hkeeps := hrun.keeps
  obtain ⟨status, c', hagain⟩ := streamCompressSession_files [oneByte 2] silent hout hw
    (by rw [havail]; decide) htotal (by rw [hkeeps.tmpSize]; decide) hkeeps.outSize
    (show (copying.init (aecParamsOf c.config)).2 = some Given.start from rfl)
  obtain ⟨status', c'', hnew⟩ := streamCompressSession_files [oneByte 2] silent
    (show byteCompressor.outputStream = .closed from rfl) hw (by decide) rfl (by decide) rfl
    (show (copying.init (aecParamsOf byteCompressor.config)).2 = some Given.start from rfl)
  rw [havail, hcarry, hkeeps.header] at hagain
  refine ⟨c, fs', hrun, _, _, ⟨_, ⟨c', status, hagain⟩, FileSystem.content_put_self ..⟩,
    ⟨_, ⟨c'', status', hnew⟩, FileSystem.content_put_self ..⟩, ?_⟩
  -- neither session fills a block, so both only carry
  have hbuffered : ∀ carry : List U8, carry.length ≤ 1 →
      Rechunker.pushes copying.coder streamChunk chunk
        { state := Given.start, carry := carry, written := [] } ([oneByte 2].map InBuf.bytes)
      = { state := Given.start, carry := carry ++ [2], written := [] } := by
    intro carry hle
    have hlt : (carry ++ (oneByte 2).bytes).length < streamChunk := by
      have := streamChunk_eq
      rw [List.length_append]
      exact Nat.lt_of_le_of_lt (Nat.add_le_add_right hle 1) (by decide)
    rw [List.map_cons, List.map_nil, Rechunker.pushes, List.foldl_cons, List.foldl_nil,
      Rechunker.push_of_lt hlt]
    rfl
  rw [ne_eq, List.append_right_inj, hbuffered _ (by decide), hbuffered _ (by decide)]
  decide

end CodecImpl

end IQzip
