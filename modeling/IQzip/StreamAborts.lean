import IQzip.DecoderSessions
import IQzip.StreamSteps

/-! # When a streaming call aborts

The calls that follow an init, on an object that any calls have reached, whatever the calls return.

* `session_abort_eq`: for any libaec, when a call aborts and how.
* `stream_abort_eq`: with a libaec that counts what it makes, a call aborts for the want of a coder
  state only.
* `streamSessions_return_iff`: then a whole session returns when its init finds the file and gets a
  coder state.

`decompress_init` itself reads behind its header buffer, which the model leaves out
(`setFromBuffer`); these results are about what comes after. -/

namespace IQzip

open Library

variable {σ τ : Type}

/-! ## Objects that calls reach -/

namespace Call

/-- The init functions. -/
def Inits : Call → Prop
  | compressInit .. | streamCompressInit _ | decompressInit .. => True
  | _ => False

/-- The calls after an init, but for the file loops. -/
def Streams : Call → Prop
  | streamCompress _ | streamCompressFin | streamDecompress _ | streamDecompressFin => True
  | compressFin | decompressFin => True
  | _ => False

end Call

namespace Codec

/-- `d_total_out`. -/
def dTotalOut : Codec σ τ → Nat
  | compressor c => c.dTotalOut
  | decompressor d => d.dTotalOut

/-- `CodecImpl.Fits` for either class. -/
def Fits : Codec σ τ → Prop
  | compressor c => c.Fits
  | decompressor d => d.toCodecImpl.Fits

/-- `CodecImpl.Roomy` for either class. -/
def Roomy : Codec σ τ → Prop
  | compressor c => c.Roomy
  | decompressor d => d.toCodecImpl.Roomy

/-- `CodecImpl.Sound` for either class. -/
def Sound : Codec σ τ → Prop
  | compressor c => c.Sound
  | decompressor d => d.toCodecImpl.Sound

/-- A new object. A sample has a bit at least. -/
inductive New : Codec σ τ → Prop
  | compressor (storage : ObjectStorage σ) {cfg : Config} (hres : 1 ≤ cfg.sampleResolution) :
      New (.compressor (CompressorImpl.construct storage cfg))
  | decompressor (storage : ObjectStorage τ) :
      New (.decompressor (DecompressorImpl.construct storage))

variable (enc : Aec σ) (dec : Aec τ)

/-- The objects that calls reach, in any order, whatever they return and whatever becomes of the
files in between. -/
inductive Reached : Codec σ τ → Prop
  | new {o : Codec σ τ} (hnew : o.New) : Reached o
  | call {o o' : Codec σ τ} {k : Call} {fuel : Nat} {fs fs' : FileSystem} {status : Int}
      (ho : Reached o) (h : o.call enc dec fuel fs k = some (.ok (status, o', fs'))) : Reached o'

/-- The objects in a session whose init found `n` bytes counted. -/
inductive InSession (n : Nat) : Codec σ τ → Prop
  | init {o o' : Codec σ τ} {k : Call} {fuel : Nat} {fs fs' : FileSystem} {status : Int}
      (ho : Reached enc dec o) (hcount : o.dTotalOut = n) (hk : k.Inits)
      (h : o.call enc dec fuel fs k = some (.ok (status, o', fs'))) : InSession n o'
  | next {o o' : Codec σ τ} {k : Call} {fuel : Nat} {fs fs' : FileSystem} {status : Int}
      (ho : InSession n o) (hk : k.Streams)
      (h : o.call enc dec fuel fs k = some (.ok (status, o', fs'))) : InSession n o'

/-- Why a call of a session aborts, when the object is sound: it needs the coder, and there is no
coder state. -/
def soundAbort : Call → Codec σ τ → Option Abort
  | .compressFin, .compressor c => c.coderAbort
  | .streamCompress inbuf, .compressor c => c.blockAbort inbuf
  | .streamCompressFin, .compressor c => c.coderAbort
  | .decompressFin, .decompressor d => d.coderAbort
  | .streamDecompress inbuf, .decompressor d => d.blockAbort inbuf
  | .streamDecompressFin, .decompressor d => d.coderAbort
  | _, _ => none

/-- Why it aborts on any object: the calls that come to the coder are decided by its answer. -/
def abort : Call → Codec σ τ → Option Abort
  | .streamCompress inbuf, .compressor c => c.pushAbort enc inbuf
  | .streamCompressFin, .compressor c => c.callAbort enc .flush c.carry
  | .streamDecompress inbuf, .decompressor d => d.pushAbort dec inbuf
  | .streamDecompressFin, .decompressor d => d.callAbort dec .noFlush d.carry
  | k, o => o.soundAbort k

variable {enc dec} {n : Nat} {o o' : Codec σ τ} {k : Call} {fuel : Nat} {fs fs' : FileSystem}
  {status : Int} {r : Outcome (Codec σ τ)}

/-! ### Steps and runs -/

/-- A new object has its buffers. -/
theorem New.fits (h : o.New) : o.Fits := by
  cases h with
  | compressor storage hres => exact ⟨CompressorImpl.carryFits_construct storage hres, rfl⟩
  | decompressor storage => exact ⟨DecompressorImpl.carryFits_construct storage, rfl⟩

/-- **Step rule**: the file functions leave the buffers alone, the streaming ones keep the carry in
its block. -/
theorem Fits.call (hfits : o.Fits) (h : o.call enc dec fuel fs k = some (.ok (status, o', fs'))) :
    o'.Fits := by
  cases o with
  | compressor c =>
    cases k with
    | compressInit fin fout =>
      obtain ⟨b, -, rfl⟩ := eq_of_lift (Option.some.inj h)
      exact { (hfits : c.Fits) with }
    | compress cell =>
      obtain ⟨r, -, hlift⟩ := Option.map_eq_some_iff.mp h
      obtain ⟨b, -, rfl⟩ := eq_of_lift hlift
      exact { (hfits : c.Fits) with }
    | compressFin =>
      obtain ⟨b, -, rfl⟩ := eq_of_lift (Option.some.inj h)
      exact { (hfits : c.Fits) with }
    | streamCompressInit fout =>
      obtain ⟨c', hrun, rfl⟩ := eq_of_lift (Option.some.inj h)
      exact ((c.streamCompressInit_ends enc fs fout).leaves _ _ _ hrun).fits hfits
    | streamCompress inbuf =>
      obtain ⟨c', hrun, rfl⟩ := eq_of_lift (Option.some.inj h)
      exact ⟨hfits.toCarryFits.streamCode hrun,
        (CodecImpl.streamCode_keeps hrun).outSize.trans hfits.outSize⟩
    | streamCompressFin =>
      obtain ⟨c', hrun, rfl⟩ := eq_of_lift (Option.some.inj h)
      exact ⟨hfits.toCarryFits.streamFin hrun,
        (CodecImpl.streamFin_keeps hrun).outSize.trans hfits.outSize⟩
    | _ => cases h
  | decompressor d =>
    cases k with
    | decompressInit fin fout =>
      obtain ⟨d', hrun, rfl⟩ := eq_of_lift (Option.some.inj h)
      exact (DecompressorImpl.decompressInit_reset hrun).fits hfits
    | decompress cell =>
      obtain ⟨r, -, hlift⟩ := Option.map_eq_some_iff.mp h
      obtain ⟨b, -, rfl⟩ := eq_of_lift hlift
      exact { (hfits : d.toCodecImpl.Fits) with }
    | decompressFin =>
      obtain ⟨b, -, rfl⟩ := eq_of_lift (Option.some.inj h)
      exact { (hfits : d.toCodecImpl.Fits) with }
    | streamDecompress inbuf =>
      obtain ⟨c, hrun, rfl⟩ := eq_of_lift (Option.some.inj h)
      exact ⟨hfits.toCarryFits.streamCode hrun,
        (CodecImpl.streamCode_keeps hrun).outSize.trans hfits.outSize⟩
    | streamDecompressFin =>
      obtain ⟨c, hrun, rfl⟩ := eq_of_lift (Option.some.inj h)
      exact ⟨hfits.toCarryFits.streamFin hrun,
        (CodecImpl.streamFin_keeps hrun).outSize.trans hfits.outSize⟩
    | _ => cases h

/-- **Run rule**: every object that calls reach has them. -/
theorem Reached.fits (h : o.Reached enc dec) : o.Fits := by
  induction h with
  | new hnew => exact hnew.fits
  | call _ hcall ih => exact ih.call hcall

/-- **The init functions** leave a roomy object, and a sound one when at most `2^63` bytes were
counted, whether both files opened or not. -/
theorem Fits.call_init (hfits : o.Fits) (hk : k.Inits)
    (h : o.call enc dec fuel fs k = some (.ok (status, o', fs'))) :
    o'.Roomy ∧ (o.dTotalOut ≤ 2 ^ 63 → o'.Sound) := by
  cases o with
  | compressor c =>
    cases k with
    | compressInit fin fout =>
      obtain ⟨b, hrun, rfl⟩ := eq_of_lift (Option.some.inj h)
      have hclear := (c.compressInit_ends enc fs fin fout).leaves _ _ _ hrun
      have hfits' : CodecImpl.Fits { c with toIqzipImpl := b } := { (hfits : c.Fits) with }
      exact ⟨hfits'.roomy hclear, fun hcount => hfits'.sound hcount hclear⟩
    | streamCompressInit fout =>
      obtain ⟨c', hrun, rfl⟩ := eq_of_lift (Option.some.inj h)
      have hreset := (c.streamCompressInit_ends enc fs fout).leaves _ _ _ hrun
      exact ⟨hreset.roomy hfits, hreset.sound hfits⟩
    | _ => first | exact hk.elim | cases h
  | decompressor d =>
    cases k with
    | decompressInit fin fout =>
      obtain ⟨d', hrun, rfl⟩ := eq_of_lift (Option.some.inj h)
      have hreset := DecompressorImpl.decompressInit_reset hrun
      exact ⟨hreset.roomy hfits, hreset.sound hfits⟩
    | _ => first | exact hk.elim | cases h

/-- **Step rule**: whatever a call of a session returns, a roomy object stays roomy, and a sound one
sound when failing calls count what they make. -/
theorem Roomy.call (hroomy : o.Roomy) (hk : k.Streams) (h : o.call enc dec fuel fs k = some r) :
    r.Ends (o.abort enc dec k) fun o' =>
      o'.Roomy ∧ (enc.CountsMade → dec.CountsMade → o.Sound → o'.Sound) := by
  cases o with
  | compressor c =>
    have hroomy' : c.Roomy := hroomy
    cases k with
    | compressFin =>
      cases h
      refine (c.fin_ends enc fs).lift ?_
      intro b hsame
      have hgoes := CodecImpl.Goes.of_counters enc hroomy' hsame
      exact ⟨hgoes.roomy, fun henc _ => hgoes.sound henc⟩
    | streamCompress inbuf =>
      cases h
      refine (hroomy'.streamCode enc fs inbuf).lift ?_
      rintro c' ⟨hgoes, -⟩
      exact ⟨hgoes.roomy, fun henc _ => hgoes.sound henc⟩
    | streamCompressFin =>
      cases h
      refine (hroomy'.streamFin enc .flush fs).lift ?_
      intro c' hgoes
      exact ⟨hgoes.roomy, fun henc _ => hgoes.sound henc⟩
    | _ => first | exact hk.elim | cases h
  | decompressor d =>
    have hroomy' : d.toCodecImpl.Roomy := hroomy
    cases k with
    | decompressFin =>
      cases h
      refine (d.fin_ends dec fs).lift ?_
      intro b hsame
      have hgoes := CodecImpl.Goes.of_counters dec hroomy' hsame
      exact ⟨hgoes.roomy, fun _ hdec => hgoes.sound hdec⟩
    | streamDecompress inbuf =>
      cases h
      refine (hroomy'.streamCode dec fs inbuf).lift ?_
      rintro c' ⟨hgoes, -⟩
      exact ⟨hgoes.roomy, fun _ hdec => hgoes.sound hdec⟩
    | streamDecompressFin =>
      cases h
      refine (hroomy'.streamFin dec .noFlush fs).lift ?_
      intro c' hgoes
      exact ⟨hgoes.roomy, fun _ hdec => hgoes.sound hdec⟩
    | _ => first | exact hk.elim | cases h

/-- **Run rule.** -/
theorem InSession.roomy (h : o.InSession enc dec n) : o.Roomy := by
  induction h with
  | init hreach _ hk hcall => exact (hreach.fits.call_init hk hcall).1
  | next _ hk hcall ih => exact ((ih.call hk hcall).leaves _ _ _ rfl).1

/-- The same for a sound object. -/
theorem InSession.sound (h : o.InSession enc dec n) (henc : enc.CountsMade)
    (hdec : dec.CountsMade) (hn : n ≤ 2 ^ 63) : o.Sound := by
  induction h with
  | init hreach hcount hk hcall => exact (hreach.fits.call_init hk hcall).2 (hcount.trans_le hn)
  | next ho hk hcall ih => exact ((ho.roomy.call hk hcall).leaves _ _ _ rfl).2 henc hdec ih

/-- On a sound object the answer of the coder does not matter. -/
theorem Sound.abort_eq (h : o.Sound) : o.abort enc dec k = o.soundAbort k := by
  cases o with
  | compressor c =>
    have hsound : c.Sound := h
    cases k with
    | streamCompress inbuf => exact hsound.pushAbort enc inbuf
    | streamCompressFin => exact hsound.callAbort enc .flush c.carry
    | _ => rfl
  | decompressor d =>
    have hsound : d.toCodecImpl.Sound := h
    cases k with
    | streamDecompress inbuf => exact hsound.pushAbort dec inbuf
    | streamDecompressFin => exact hsound.callAbort dec .noFlush d.carry
    | _ => rfl

end Codec

/-! ## When a call aborts -/

/-- **When a call of a session aborts**, for any libaec, whatever the calls before it returned and
whatever the object was used for before the session: it comes to the coder, and there is no coder
state, or its first call of the coder succeeds and the length that is then written,
`total_out - d_total_out`, is more than `d_out` holds. -/
theorem session_abort_eq {enc : Aec σ} {dec : Aec τ} {n : Nat} {o : Codec σ τ} {k : Call}
    {fuel : Nat} {fs : FileSystem} {r : Outcome (Codec σ τ)} (hsession : o.InSession enc dec n)
    (hk : k.Streams) (h : o.call enc dec fuel fs k = some r) : r.abort = o.abort enc dec k :=
  (hsession.roomy.call hk h).abort_eq

/-- A coder whose first call fails, and counts all of its space. -/
abbrev stumbling : Aec Bool := .failingOnce id

open CodecImpl in
/-- When the end of its session is tried again, the write takes a byte from behind `d_out`. -/
theorem session_abort_eq_stumbling :
    ∃ (o : Codec Bool Bool) (r : Outcome (Codec Bool Bool)),
      o.InSession stumbling stumbling 0
        ∧ o.call stumbling stumbling 0 .empty .streamCompressFin = some r
        ∧ r.abort = some .outOfBounds := by
  have hnew : (Codec.compressor (CompressorImpl.construct (zeroStorage _) byteConfig)
      : Codec Bool Bool).Reached stumbling stumbling := .new (.compressor _ (by decide))
  obtain ⟨status, c, fs₁, hopen, hstate, hspace, hmade, hcount, hgood⟩ :
      ∃ (status : Int) (c : CodecImpl Bool) (fs₁ : FileSystem),
        (Codec.compressor (CompressorImpl.construct (zeroStorage _) byteConfig)
          : Codec Bool Bool).call stumbling stumbling 0 .empty (.streamCompressInit "a.iqz")
          = some (.ok (status, .compressor c, fs₁))
        ∧ c.dStrm.state = some false ∧ c.dStrm.availOut = chunk ∧ c.dStrm.totalOut = 0
        ∧ c.dTotalOut = 0 ∧ c.outputStream.good = true :=
    ⟨_, _, _, rfl, rfl, rfl, rfl, rfl, rfl⟩
  have hinit : Call.Inits (.streamCompressInit "a.iqz") := trivial
  have hfin : Call.Streams .streamCompressFin := trivial
  have hsession : (Codec.compressor c : Codec Bool Bool).InSession stumbling stumbling 0 :=
    .init hnew rfl hinit hopen
  have hroomy : c.Roomy := hsession.roomy
  have hne : (stumbling.coder.call false .flush c.carry c.dStrm.availOut).status ≠ aecOk :=
    show (-1 : Int) ≠ 0 by decide
  have hfail := hroomy.streamFin_of_ne hstate .flush fs₁ hne
  generalize hc : c.coded _ = c' at hfail
  have hcall : (Codec.compressor c : Codec Bool Bool).call stumbling stumbling 0 fs₁
      .streamCompressFin = some (.ok (-1, .compressor c', fs₁)) := by
    show some ((c.streamFin stumbling .flush fs₁).lift Codec.compressor) = _
    rw [hfail]
    rfl
  have hsession' : (Codec.compressor c' : Codec Bool Bool).InSession stumbling stumbling 0 :=
    .next hsession hfin hcall
  have hagain : (Codec.compressor c' : Codec Bool Bool).call stumbling stumbling 0 .empty
      .streamCompressFin
        = some ((c'.streamFin stumbling .flush .empty).lift Codec.compressor) := rfl
  refine ⟨_, _, hsession', hagain, ?_⟩
  rw [session_abort_eq hsession' hfin hagain]
  show c'.callAbort stumbling .flush c'.carry = some .outOfBounds
  -- the space counted by the call that failed, and the byte of the one that follows
  have htotal : c'.dStrm.totalOut = chunk := by
    rw [← hc]
    show sizeAdd c.dStrm.totalOut c.dStrm.availOut = chunk
    rw [hmade, hspace]
    rfl
  have hstate' : c'.dStrm.state = some true := hc ▸ rfl
  have hspace' : c'.dStrm.availOut = chunk := hc ▸ hspace
  have hcount' : c'.dTotalOut = 0 := hc ▸ hcount
  have hgood' : c'.outputStream.good = true := hc ▸ hgood
  have hbyte : (stumbling.coder.call true .flush c'.carry chunk).counted = 1 := rfl
  rw [callAbort_of_some hstate', hspace']
  refine if_pos ⟨rfl, hgood', ?_, ?_⟩
  · rw [htotal, hcount', hbyte]
    decide
  · rw [htotal, hcount', hbyte]
    decide

/-- **With a libaec that counts what it makes**, in failing calls too, nothing is ever read or
written outside a buffer when at most `2^63` bytes were counted before the session: a call of the
session aborts when there is no coder state and it has a full block or ends the session, and in no
other case. -/
theorem stream_abort_eq {enc : Aec σ} {dec : Aec τ} (henc : enc.CountsMade) (hdec : dec.CountsMade)
    {n : Nat} (hn : n ≤ 2 ^ 63) {o : Codec σ τ} {k : Call} {fuel : Nat} {fs : FileSystem}
    {r : Outcome (Codec σ τ)} (hsession : o.InSession enc dec n) (hk : k.Streams)
    (h : o.call enc dec fuel fs k = some r) : r.abort = o.soundAbort k := by
  rw [(hsession.roomy.call hk h).abort_eq]
  exact (hsession.sound henc hdec hn).abort_eq

open CodecImpl in
/-- After the end of a session the next end finds no coder state. -/
theorem stream_abort_eq_ended :
    ∃ (o : Codec (Given U8) (Given U8)) (r : Outcome (Codec (Given U8) (Given U8))),
      o.InSession copying copying 0
        ∧ o.call copying copying 0 .empty .streamCompressFin = some r
        ∧ r.abort = some .nullCoderState := by
  have hreach : (Codec.compressor byteCompressor : Codec (Given U8) (Given U8)).Reached
      copying copying := .new (.compressor (zeroStorage _) (by decide))
  obtain ⟨status, o₁, fs₁, hopen⟩ : ∃ status o₁ fs₁,
      (Codec.compressor byteCompressor : Codec (Given U8) (Given U8)).call copying copying 0 .empty
        (.streamCompressInit "a.iqz") = some (.ok (status, o₁, fs₁)) := ⟨_, _, _, rfl⟩
  obtain ⟨status', o₂, fs₂, hend, hnone⟩ : ∃ status' o₂ fs₂,
      o₁.call copying copying 0 fs₁ .compressFin = some (.ok (status', o₂, fs₂))
        ∧ o₂.soundAbort .streamCompressFin = some .nullCoderState := by
    cases hopen
    exact ⟨_, _, _, rfl, rfl⟩
  have hinit : Call.Inits (.streamCompressInit "a.iqz") := trivial
  have hfin : Call.Streams .compressFin := trivial
  have hagain : Call.Streams .streamCompressFin := trivial
  have hsession : o₂.InSession copying copying 0 := .next (.init hreach rfl hinit hopen) hfin hend
  obtain ⟨r, hcall⟩ : ∃ r, o₂.call copying copying 0 .empty .streamCompressFin = some r := by
    cases hopen
    cases hend
    exact ⟨_, rfl⟩
  exact ⟨o₂, r, hsession, hcall, (stream_abort_eq (Aec.countsMade_ofFunctions id id)
    (Aec.countsMade_ofFunctions id id) (Nat.zero_le _) hsession hagain hcall).trans hnone⟩

/-! ## Whole sessions -/

/-- With a coder every buffer of a list goes through. -/
theorem CodecImpl.Sound.streamCodeAll {c : CodecImpl σ} (h : Sound c)
    (hcoder : c.dStrm.state ≠ none) {api : Aec σ} (counts : api.CountsMade) (fs : FileSystem)
    (bufs : List InBuf) :
    ∃ c' fs', c.streamCodeAll api fs bufs = .ok (c', fs') ∧ Sound c' ∧ c'.dStrm.state ≠ none := by
  induction bufs generalizing c fs with
  | nil => exact ⟨c, fs, rfl, h, hcoder⟩
  | cons inbuf bufs ih =>
    obtain ⟨status, c₁, fs₁, hrun, hsound, hcoder₁⟩ := h.streamCode hcoder counts fs inbuf
    unfold CodecImpl.streamCodeAll
    rw [hrun]
    exact ih hsound hcoder₁ fs₁

/-- What `decompress_init` leaves of a state is what the coder gave, if it was called. -/
theorem DecompressorImpl.decompressInit_state {api : Aec σ} {d d' : DecompressorImpl σ}
    {fs fs' : FileSystem} {fin fout : String} {status : Int}
    (h : d.decompressInit api fs fin fout = .ok (status, d', fs')) :
    d'.dStrm.state = (d.coderCall fs fin fout).bind fun p => (api.init p).2 := by
  unfold decompressInit at h
  unfold coderCall
  cases hread : d.readHeader fs fin with
  | error e =>
    rw [hread] at h
    cases h
  | ok d₁ =>
    have hfresh : d₁.dStrm.state = none := by
      unfold readHeader at hread
      split at hread
      · cases hread
      · cases hread
        rfl
    rw [hread] at h
    dsimp only at h ⊢
    split_ifs at h ⊢
    · cases h
      exact hfresh
    · cases h
      exact hfresh
    · cases h
      rfl

/-- After an init a coder state is enough for the rest of the session. -/
theorem CodecImpl.Sound.session_returns {c : CodecImpl σ} (h : Sound c)
    (hcoder : c.dStrm.state ≠ none) {api : Aec σ} (counts : api.CountsMade) (mode : FlushMode)
    (fs : FileSystem) (bufs : List InBuf) :
    ∃ c₁ fs₁ r, c.streamCodeAll api fs bufs = .ok (c₁, fs₁)
      ∧ c₁.streamFin api mode fs₁ = .ok r := by
  obtain ⟨c₁, fs₁, hcode, hsound, hcoder₁⟩ := h.streamCodeAll hcoder counts fs bufs
  obtain ⟨r, hend⟩ := hsound.streamFin hcoder₁ api mode fs₁
  exact ⟨c₁, fs₁, r, hcode, hend⟩

/-- **A session of the streaming compressor** that finds at most `2^63` bytes counted returns when
the header can be written and the coder gives a state. -/
theorem CodecImpl.Fits.streamCompressSession_returns_iff {c : CodecImpl σ} (h : Fits c)
    (hcount : c.dTotalOut ≤ 2 ^ 63) {api : Aec σ} (counts : api.CountsMade) (fs : FileSystem)
    (fout : String) (bufs : List InBuf) :
    (∃ r, c.streamCompressSession api fs fout bufs = .ok r)
      ↔ fs.writable fout = true ∧ (api.init (aecParamsOf c.config)).2 ≠ none := by
  constructor
  · rintro ⟨r, hrun⟩
    refine ⟨?_, fun hinit => streamCompressSession_of_none hinit r hrun⟩
    by_contra hw
    exact streamCompressSession_of_unwritable hw r hrun
  · rintro ⟨hw, hinit⟩
    have hends := c.streamCompressInit_ends api fs fout
    rw [writeAbort, if_pos hw] at hends
    obtain ⟨status, c₁, fs₁, hopen⟩ := Outcome.returns_of_abort hends.abort_eq
    have hsound : Sound c₁ := (hends.leaves _ _ _ hopen).sound h hcount
    have hcoder : c₁.dStrm.state ≠ none := streamCompressInit_state hopen ▸ hinit
    obtain ⟨c₂, fs₂, r, hcode, hend⟩ := hsound.session_returns hcoder counts .flush fs₁ bufs
    unfold streamCompressSession streamCompressFin
    simp only [hopen, hcode, hend]
    exact ⟨r, rfl⟩

/-- **A session of the streaming decompressor** that finds at most `2^63` bytes counted returns when
its init comes to call the coder and the coder gives a state. -/
theorem CodecImpl.Fits.streamDecompressSession_returns_iff {d : DecompressorImpl σ}
    (h : d.toCodecImpl.Fits) (hcount : d.dTotalOut ≤ 2 ^ 63) {api : Aec σ}
    (counts : api.CountsMade) (fs : FileSystem) (fin fout : String) (bufs : List InBuf) :
    (∃ r, d.streamDecompressSession api fs fin fout bufs = .ok r)
      ↔ ∃ p, d.coderCall fs fin fout = some p ∧ (api.init p).2 ≠ none := by
  constructor
  · rintro ⟨r, hrun⟩
    cases hinit : d.decompressInit api fs fin fout with
    | error e =>
      unfold DecompressorImpl.streamDecompressSession at hrun
      rw [hinit] at hrun
      cases hrun
    | ok opened =>
      obtain ⟨status, d₁, fs₁⟩ := opened
      have hstate := DecompressorImpl.decompressInit_state hinit
      have hne : d₁.dStrm.state ≠ none := fun hs =>
        DecompressorImpl.streamDecompressSession_of_none hinit hs r hrun
      cases hcall : d.coderCall fs fin fout with
      | none =>
        rw [hcall] at hstate
        exact absurd hstate hne
      | some p =>
        rw [hcall] at hstate
        exact ⟨p, rfl, fun hnone => hne (hstate.trans hnone)⟩
  · rintro ⟨p, hcall, hinit⟩
    obtain ⟨d₁, fs₁, hopen, -, hstate⟩ := d.decompressInit_of_coderCall api fs fin fout hcall
    have hreset := DecompressorImpl.decompressInit_reset hopen
    have hsound : d₁.toCodecImpl.Sound := hreset.sound h hcount
    obtain ⟨c, fs₂, r, hcode, hend⟩ :=
      hsound.session_returns (hstate ▸ hinit) counts .noFlush fs₁ bufs
    unfold DecompressorImpl.streamDecompressSession streamDecompressFin
    simp only [hopen, hcode, hend]
    exact ⟨r, rfl⟩

/-- **When a streaming session aborts.** Libaec counts what it makes, and no call needs to succeed.
On an object that calls have reached, with at most `2^63` bytes counted, a session of init, any
buffers and end goes through exactly when the init finds its file and gets a coder state. -/
theorem streamSessions_return_iff {enc : Aec σ} {dec : Aec τ} (henc : enc.CountsMade)
    (hdec : dec.CountsMade) :
    (∀ c : CodecImpl σ, (Codec.compressor c : Codec σ τ).Reached enc dec → c.dTotalOut ≤ 2 ^ 63 →
        ∀ (fs : FileSystem) (fout : String) (bufs : List InBuf),
          (∃ r, c.streamCompressSession enc fs fout bufs = .ok r)
            ↔ fs.writable fout = true ∧ (enc.init (aecParamsOf c.config)).2 ≠ none)
      ∧ ∀ d : DecompressorImpl τ, (Codec.decompressor d : Codec σ τ).Reached enc dec →
        d.dTotalOut ≤ 2 ^ 63 → ∀ (fs : FileSystem) (fin fout : String) (bufs : List InBuf),
          (∃ r, d.streamDecompressSession dec fs fin fout bufs = .ok r)
            ↔ ∃ p, d.coderCall fs fin fout = some p ∧ (dec.init p).2 ≠ none := by
  constructor
  · intro c hreach hcount fs fout bufs
    have hfits : c.Fits := hreach.fits
    exact hfits.streamCompressSession_returns_iff hcount henc fs fout bufs
  · intro d hreach hcount fs fin fout bufs
    have hfits : d.toCodecImpl.Fits := hreach.fits
    exact hfits.streamDecompressSession_returns_iff hcount hdec fs fin fout bufs

open CodecImpl in
/-- A session on a new compressor goes through; without its input file one on a new decompressor
does not. -/
theorem streamSessions_return_oneByte :
    (∃ r, byteCompressor.streamCompressSession copying .empty "a.iqz" [oneByte 1] = .ok r)
      ∧ ¬ ∃ r, (DecompressorImpl.construct (zeroStorage _)).streamDecompressSession copying .empty
        "a.iqz" "out" [oneByte 1] = .ok r := by
  have counts := Aec.countsMade_ofFunctions id id
  constructor
  · refine ((@streamSessions_return_iff (Given U8) (Given U8) copying copying counts counts).1
      byteCompressor (.new (.compressor (zeroStorage _) (by decide))) (by decide) .empty "a.iqz"
      _).mpr ⟨rfl, ?_⟩
    exact Option.some_ne_none _
  · intro hreturns
    obtain ⟨p, hcall, -⟩ := ((@streamSessions_return_iff (Given U8) (Given U8) copying copying
      counts counts).2 (DecompressorImpl.construct (zeroStorage _))
      (.new (.decompressor (zeroStorage _))) (by decide) .empty "a.iqz" "out" [oneByte 1]).mp
      hreturns
    cases hcall

end IQzip
