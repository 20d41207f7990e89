import IQzip.Calls
import IQzip.DecoderParameters
import IQzip.Sessions

/-! # Sessions on one decompressor

`decompress_init` reads every parameter back from the header of its file, so a decompressor takes
less from its past than a compressor: the streams, the bytes buffered for the next block and the
count of bytes written. `decompressor_isolated` says that a session which finds these as on a new
object leaves the files that it leaves there, whatever was called before. -/

namespace IQzip

open Library

variable {σ τ : Type}

/-! ## The header object plays no role -/

/-- The object with another header. -/
def IqzipImpl.withHeader (h : IqzipCompressionHeader) (c : IqzipImpl σ) : IqzipImpl σ :=
  { c with dCcsdsCipHdr := h }

/-- The loop on such an object. -/
def FileLoop.withHeader (h : IqzipCompressionHeader) (l : FileLoop σ) : FileLoop σ :=
  { l with impl := l.impl.withHeader h }

section WithHeader

variable {api : Aec σ} (h : IqzipCompressionHeader)

namespace FileLoop

variable (l : FileLoop σ)

/-- The read of a turn does not look at the header object. -/
theorem refill_withHeader : (l.withHeader h).refill = l.refill.withHeader h := by
  unfold refill
  by_cases hread : l.impl.dStrm.availIn = 0 ∧ l.inputAvail = true
  · rw [if_pos hread, if_pos (show (l.withHeader h).impl.dStrm.availIn = 0
      ∧ (l.withHeader h).inputAvail = true from hread)]
    rfl
  · rw [if_neg hread, if_neg (show ¬ ((l.withHeader h).impl.dStrm.availIn = 0
      ∧ (l.withHeader h).inputAvail = true) from hread)]

/-- Nor does its write. -/
theorem account_withHeader : (l.withHeader h).account = l.account.map (withHeader h) := by
  unfold account
  dsimp only
  by_cases hmade : 0 < writeLength l.impl.dStrm.totalOut l.totalOut
  · rw [if_pos hmade, if_pos (show 0 < writeLength (l.withHeader h).impl.dStrm.totalOut
      (l.withHeader h).totalOut from hmade)]
    have hwrite : (l.withHeader h).impl.outputStream.write (l.withHeader h).fs (l.withHeader h).out
        (writeLength (l.withHeader h).impl.dStrm.totalOut (l.withHeader h).totalOut)
      = l.impl.outputStream.write l.fs l.out (writeLength l.impl.dStrm.totalOut l.totalOut) := rfl
    rw [hwrite]
    cases l.impl.outputStream.write l.fs l.out
        (writeLength l.impl.dStrm.totalOut l.totalOut) with
    | error e => rfl
    | ok r => simp only [Except.map, withHeader, IqzipImpl.withHeader]
  · rw [if_neg hmade, if_neg (show ¬ 0 < writeLength (l.withHeader h).impl.dStrm.totalOut
      (l.withHeader h).totalOut from hmade)]
    rfl

/-- Nor does the whole turn. -/
theorem step_withHeader :
    (l.withHeader h).step api
      = (l.step api).map (withHeader h) (Except.map fun r => (r.1, r.2.withHeader h)) := by
  have hflags : ((l.withHeader h).inputAvail || (l.withHeader h).outputAvail)
      = (l.inputAvail || l.outputAvail) := rfl
  rw [step, step, hflags]
  by_cases hgo : (l.inputAvail || l.outputAvail) = true
  · rw [if_pos hgo, if_pos hgo, refill_withHeader]
    simp only [show (l.refill.withHeader h).impl.dStrm = l.refill.impl.dStrm from rfl,
      show (l.refill.withHeader h).out = l.refill.out from rfl]
    cases api.code .noFlush l.refill.impl.dStrm l.refill.out with
    | error e => rfl
    | ok r =>
      obtain ⟨status, strm, out⟩ := r
      dsimp only
      by_cases herr : status ≠ aecOk
      · rw [if_pos herr, if_pos herr]
        rfl
      · rw [if_neg herr, if_neg herr, show (l.refill.withHeader h).coded strm out
          = (l.refill.coded strm out).withHeader h from rfl, account_withHeader]
        cases (l.refill.coded strm out).account <;> rfl
  · rw [if_neg hgo, if_neg hgo]
    rfl

end FileLoop

namespace IqzipImpl

variable (c : IqzipImpl σ) (fs : FileSystem)

/-- Nor does the loop. -/
theorem decompress_withHeader (fuel : Nat) (cell : Nat → U8) :
    (c.withHeader h).decompress api fuel cell fs
      = (c.decompress api fuel cell fs).map (Outcome.lift (withHeader h)) := by
  have hloop : iterate (FileLoop.step api) fuel
        ((FileLoop.start c fs { size := chunk, cell := cell }).withHeader h)
      = (iterate (FileLoop.step api) fuel
          (FileLoop.start c fs { size := chunk, cell := cell })).map
          (Except.map fun r => (r.1, r.2.withHeader h)) :=
    iterate_map (FileLoop.withHeader h) _ (fun _ => True) (fun _ _ _ _ => trivial)
      (fun l _ => FileLoop.step_withHeader h l) trivial fuel
  have hstart : FileLoop.start (c.withHeader h) fs { size := chunk, cell := cell }
      = (FileLoop.start c fs { size := chunk, cell := cell }).withHeader h := rfl
  rw [decompress, decompress, hstart, hloop]
  cases iterate (FileLoop.step api) fuel
      (FileLoop.start c fs { size := chunk, cell := cell }) with
  | none => rfl
  | some result => cases result <;> rfl

/-- Nor does the function that ends the session. -/
theorem fin_withHeader : (c.withHeader h).fin api fs = (c.fin api fs).lift (withHeader h) := by
  unfold fin
  rw [show (c.withHeader h).dStrm = c.dStrm from rfl]
  cases api.finish c.dStrm with
  | error e => rfl
  | ok r =>
    dsimp only
    split_ifs <;> rfl

end IqzipImpl

end WithHeader

/-- The parser finds the same in a buffer whatever the header held. -/
theorem IqzipCompressionHeader.parseBuffer_congr (g g' : IqzipCompressionHeader)
    (buffer : List U8) :
    (g.parseBuffer buffer).1 = (g'.parseBuffer buffer).1
      ∧ (g.parseBuffer buffer).2.decodedConfig = (g'.parseBuffer buffer).2.decodedConfig := by
  rw [parseBuffer_fst, parseBuffer_fst, decodedConfig_parseBuffer, decodedConfig_parseBuffer]
  exact ⟨rfl, rfl⟩

/-! ## File sessions -/

namespace DecompressorImpl

section File

variable {api : Aec σ} {d d' : DecompressorImpl σ} {fs : FileSystem} {fin fout : String}

/-- Two objects with closed streams are in the same state after `decompress_init`, up to their
headers. -/
theorem decompressInit_congr (h : IqzipCompressionHeader) (hin : d.inputStream = .closed)
    (hout : d.outputStream = .closed) (hin' : d'.inputStream = .closed)
    (hout' : d'.outputStream = .closed) :
    (d.decompressInit api fs fin fout).lift (fun d => d.toIqzipImpl.withHeader h)
      = (d'.decompressInit api fs fin fout).lift (fun d => d.toIqzipImpl.withHeader h) := by
  unfold decompressInit readHeader IqzipCompressionHeader.parseHeaderFromFile
  cases hfile : fs.content fin with
  | none => rfl
  | some bytes =>
    dsimp only
    by_cases hlen : (bytes.take IqzipCompressionHeader.maxHeaderSize).length
        ≠ IqzipCompressionHeader.maxHeaderSize
    · rw [if_pos hlen, if_pos hlen]
    · rw [if_neg hlen, if_neg hlen]
      have hsame := d.dCcsdsCipHdr.parseBuffer_congr d'.dCcsdsCipHdr
        (bytes.take IqzipCompressionHeader.maxHeaderSize)
      generalize d.dCcsdsCipHdr.parseBuffer _ = r at hsame
      generalize d'.dCcsdsCipHdr.parseBuffer _ = r' at hsame
      obtain ⟨size, hdr⟩ := r
      obtain ⟨size', hdr'⟩ := r'
      obtain ⟨rfl, hconfig⟩ := hsame
      dsimp only at hconfig
      cases hw : fs.writable fout with
      | true =>
        simp only [hin, hin', hout, hout', InputStream.openFile, hfile, Option.isSome_some, if_true,
          InputStream.isOpen, OutputStream.openFile, hw, OutputStream.isOpen, Bool.true_eq_false,
          if_false, hconfig, Outcome.lift, Except.map, IqzipImpl.withHeader]
      | false =>
        simp only [hin, hin', hout, hout', InputStream.openFile, hfile, Option.isSome_some, if_true,
          InputStream.isOpen, OutputStream.openFile, hw, OutputStream.isOpen, Bool.true_eq_false,
          Bool.false_eq_true, if_false, hconfig, Outcome.lift, Except.map, IqzipImpl.withHeader]

/-- What a file session does once `decompress_init` has returned. -/
def afterInit (api : Aec σ) (fuel : Nat) (cell : Nat → U8) :
    Outcome (IqzipImpl σ) → Option (Outcome (IqzipImpl σ))
  | .error e => some (.error e)
  | .ok (_, c, fs) => (c.decompress api fuel cell fs).map fun
    | .error e => .error e
    | .ok (_, c, fs) => c.decompressFin api fs

/-- It works on the base class, where the header is not read. -/
theorem decompressFile_withHeader (h : IqzipCompressionHeader) (fuel : Nat) (cell : Nat → U8) :
    (d.decompressFile api fuel cell fs fin fout).map (Outcome.lift (IqzipImpl.withHeader h))
      = afterInit api fuel cell
          ((d.decompressInit api fs fin fout).lift (fun d => d.toIqzipImpl.withHeader h)) := by
  unfold decompressFile
  cases d.decompressInit api fs fin fout with
  | error e => rfl
  | ok r =>
    obtain ⟨status, d, fs⟩ := r
    simp only [Outcome.lift, Except.map, afterInit, IqzipImpl.decompress_withHeader]
    cases d.decompress api fuel cell fs with
    | none => rfl
    | some o =>
      cases o with
      | error e => rfl
      | ok r =>
        obtain ⟨status, c, fs⟩ := r
        exact congrArg some (IqzipImpl.fin_withHeader h c fs).symm

/-- Two objects with closed streams are in the same state after a whole session too, up to their
headers, and so are the files. -/
theorem decompressFile_congr (h : IqzipCompressionHeader) (hin : d.inputStream = .closed)
    (hout : d.outputStream = .closed) (hin' : d'.inputStream = .closed)
    (hout' : d'.outputStream = .closed) (fuel : Nat) (cell : Nat → U8) :
    (d.decompressFile api fuel cell fs fin fout).map (Outcome.lift (IqzipImpl.withHeader h))
      = (d'.decompressFile api fuel cell fs fin fout).map
          (Outcome.lift (IqzipImpl.withHeader h)) := by
  rw [decompressFile_withHeader, decompressFile_withHeader,
    decompressInit_congr h hin hout hin' hout']

end File

/-! ## Streaming sessions -/

section Stream

variable {api : Aec σ} {d d' : DecompressorImpl σ} {fs fs' : FileSystem} {fin fout : String}
  {bufs : List InBuf} {bytes : List U8}

/-- The parameters that a file sets, as `decompress_init` reads them. -/
def fileParams (d : DecompressorImpl σ) (bytes : List U8) : AecParams :=
  aecParamsOf (d.dCcsdsCipHdr.parseBuffer
    (bytes.take IqzipCompressionHeader.maxHeaderSize)).2.decodedConfig

/-- They are those of the file. -/
theorem fileParams_congr (d d' : DecompressorImpl σ) (bytes : List U8) :
    d.fileParams bytes = d'.fileParams bytes :=
  congrArg aecParamsOf (d.dCcsdsCipHdr.parseBuffer_congr d'.dCcsdsCipHdr _).2

/-- A session that goes on without a coder state does not return. -/
theorem streamDecompressSession_of_none {status : Int}
    (hinit : d.decompressInit api fs fin fout = .ok (status, d', fs'))
    (hs : d'.dStrm.state = none) (result : Int × CodecImpl σ × FileSystem) :
    d.streamDecompressSession api fs fin fout bufs ≠ .ok result := by
  intro h
  unfold streamDecompressSession at h
  rw [hinit] at h
  dsimp only at h
  split at h
  · cases h
  · next hcode =>
    have hlast := CodecImpl.streamCodeAll_of_none hs hcode
    unfold CodecImpl.streamDecompressFin CodecImpl.streamFin at h
    rw [CodecImpl.codeStream_of_none api _ hlast] at h
    cases h

/-- Without a path that can be written, `decompress_init` leaves no coder state. -/
theorem decompressInit_unwritable (api : Aec σ) (hin : d.inputStream = .closed)
    (hout : d.outputStream = .closed) (hfile : fs.content fin = some bytes)
    (hlen : IqzipCompressionHeader.maxHeaderSize ≤ bytes.length) (hw : fs.writable fout = false) :
    ∃ d', d.decompressInit api fs fin fout = .ok (-1, d', fs) ∧ d'.dStrm.state = none := by
  have hread := IqzipCompressionHeader.parseHeaderFromFile_eq_ok d.dCcsdsCipHdr hfile hlen
  unfold decompressInit readHeader
  simp only [hread, hin, hout, InputStream.openFile, hfile, Option.isSome_some, if_true,
    InputStream.isOpen, OutputStream.openFile, hw, OutputStream.isOpen, Bool.true_eq_false,
    Bool.false_eq_true, if_false]
  exact ⟨_, rfl, rfl⟩

/-- What a session that returns has found: a file with a header, a path that can be written, and a
coder for the parameters of the header. -/
theorem ready_of_streamDecompressSession (hin : d.inputStream = .closed)
    (hout : d.outputStream = .closed) {result : Int × CodecImpl σ × FileSystem}
    (h : d.streamDecompressSession api fs fin fout bufs = .ok result) :
    ∃ bytes t₀, fs.content fin = some bytes
      ∧ IqzipCompressionHeader.maxHeaderSize ≤ bytes.length ∧ fs.writable fout = true
      ∧ (api.init (d.fileParams bytes)).2 = some t₀ := by
  -- without a header the parser raises
  have hparsed : ∃ r, d.dCcsdsCipHdr.parseHeaderFromFile fs fin = .ok r := by
    cases hparse : d.dCcsdsCipHdr.parseHeaderFromFile fs fin with
    | ok r => exact ⟨r, rfl⟩
    | error e =>
      unfold streamDecompressSession decompressInit readHeader at h
      rw [hparse] at h
      cases h
  obtain ⟨r, hparse⟩ := hparsed
  cases hfile : fs.content fin with
  | none =>
    simp only [IqzipCompressionHeader.parseHeaderFromFile, hfile] at hparse
    cases hparse
  | some bytes =>
    have hlen := length_of_parseHeaderFromFile hfile hparse
    cases hw : fs.writable fout with
    | false =>
      obtain ⟨d₁, hinit, hs⟩ := decompressInit_unwritable api hin hout hfile hlen hw
      exact absurd h (streamDecompressSession_of_none hinit hs _)
    | true =>
      have hinit := @decompressInit_eq _ api d _ _ fout _ hin hout hfile hlen hw _ _
        Prod.mk.eta.symm
      cases hstate : (api.init (d.fileParams bytes)).2 with
      | none =>
        rw [show (api.init (aecParamsOf _)).2 = none from hstate] at hinit
        exact absurd h (streamDecompressSession_of_none hinit rfl _)
      | some t₀ => exact ⟨bytes, t₀, rfl, hlen, rfl, hstate⟩

/-- **What a streaming session leaves**, when nothing is buffered and nothing counted: what a
rechunker makes of the buffers, with a coder for the parameters of the file. -/
theorem streamDecompressSession_iff (silent : api.FailsSilently) (hin : d.inputStream = .closed)
    (hout : d.outputStream = .closed) (havail : d.dStreamAvailIn = 0) (htotal : d.dTotalOut = 0)
    (htmp : streamChunk ≤ d.dTmpStream.size) (hsize : d.dOut.size = chunk) :
    (∃ status c, d.streamDecompressSession api fs fin fout bufs = .ok (status, c, fs'))
      ↔ ∃ bytes t₀, fs.content fin = some bytes
        ∧ IqzipCompressionHeader.maxHeaderSize ≤ bytes.length ∧ fs.writable fout = true
        ∧ (api.init (d.fileParams bytes)).2 = some t₀
        ∧ fs' = fs.put fout (((Rechunker.start t₀).pushes api.coder streamChunk chunk
          (bufs.map InBuf.bytes)).finish api.coder .noFlush chunk) := by
  have hruns : ∀ {bytes t₀}, fs.content fin = some bytes →
      IqzipCompressionHeader.maxHeaderSize ≤ bytes.length → fs.writable fout = true →
      (api.init (d.fileParams bytes)).2 = some t₀ →
      ∃ status c, d.streamDecompressSession api fs fin fout bufs
        = .ok (status, c, fs.put fout (((Rechunker.start t₀).pushes api.coder streamChunk chunk
          (bufs.map InBuf.bytes)).finish api.coder .noFlush chunk)) := by
    intro bytes t₀ hfile hlen hw hstate
    obtain ⟨⟨size, hdr⟩, hparse⟩ : ∃ r, d.dCcsdsCipHdr.parseBuffer
      (bytes.take IqzipCompressionHeader.maxHeaderSize) = r := ⟨_, rfl⟩
    rw [fileParams, hparse] at hstate
    have hinit := @decompressInit_eq _ api d _ _ fout _ hin hout hfile hlen hw _ _ hparse
    rw [hstate] at hinit
    have hstart : CodecImpl.Represents (fs.put fout []) fout []
        (d.opened fin fout size hdr (some t₀)).toCodecImpl (fs.put fout []) (Rechunker.start t₀) :=
      CodecImpl.represents_start fs _ rfl rfl havail htotal htmp hsize
    have hgood : (Rechunker.start t₀).PushesOk api.coder streamChunk chunk (bufs.map InBuf.bytes)
        ∨ api.FailsSilently := Or.inr silent
    obtain ⟨c, fs₁, hcode, hrep⟩ := hstart.streamCodeAll hgood
    obtain ⟨status, c', hend⟩ := hrep.streamFin_files api .noFlush
    refine ⟨status, c', ?_⟩
    simp only [streamDecompressSession, hinit, hcode, CodecImpl.streamDecompressFin, hend,
      FileSystem.put_put, List.nil_append]
  constructor
  · rintro ⟨status, c, hrun⟩
    obtain ⟨bytes, t₀, hfile, hlen, hw, hstate⟩ := ready_of_streamDecompressSession hin hout hrun
    obtain ⟨status', c', hrun'⟩ := hruns hfile hlen hw hstate
    cases hrun.symm.trans hrun'
    exact ⟨bytes, t₀, hfile, hlen, hw, hstate, rfl⟩
  · rintro ⟨bytes, t₀, hfile, hlen, hw, hstate, rfl⟩
    exact hruns hfile hlen hw hstate

end Stream

end DecompressorImpl

/-! ## Isolation -/

/-- A complete session of the file functions or of the streaming functions. -/
inductive DecoderSession
  | file (fin fout : String) (cell : Nat → U8)
  | stream (fin fout : String) (bufs : List InBuf)

/-- The session is one of the streaming functions. -/
def DecoderSession.Streams : DecoderSession → Prop
  | .file .. => False
  | .stream .. => True

namespace DecompressorImpl

/-- The session returns and leaves these files. -/
def Writes (api : Aec σ) (d : DecompressorImpl σ) (fs : FileSystem) :
    DecoderSession → FileSystem → Prop
  | .file fin fout cell, fs' =>
      ∃ status c, Returns (fun fuel => d.decompressFile api fuel cell fs fin fout)
        (.ok (status, c, fs'))
  | .stream fin fout bufs, fs' =>
      ∃ status c, d.streamDecompressSession api fs fin fout bufs = .ok (status, c, fs')

/-- What a session relies on: closed streams, and for the streaming functions no bytes buffered and
none counted. -/
def Clean (d : DecompressorImpl σ) : DecoderSession → Prop
  | .file .. => d.inputStream = .closed ∧ d.outputStream = .closed
  | .stream .. => (d.inputStream = .closed ∧ d.outputStream = .closed)
      ∧ d.dStreamAvailIn = 0 ∧ d.dTotalOut = 0

end DecompressorImpl

section Isolation

/-- A file session leaves on one object with closed streams what it leaves on any other. -/
theorem DecompressorImpl.writes_file {api : Aec σ} {d d' : DecompressorImpl σ} {fs fs' : FileSystem}
    {fin fout : String} {cell : Nat → U8} (hclean : d.Clean (.file fin fout cell))
    (hclean' : d'.Clean (.file fin fout cell)) (h : d.Writes api fs (.file fin fout cell) fs') :
    d'.Writes api fs (.file fin fout cell) fs' := by
  obtain ⟨status, c, hreturns⟩ := h
  obtain ⟨o, hreturns', heq⟩ := (d'.decompressFile_fuelMono api cell fs fin fout).returns_of_map_eq
    (fun fuel => decompressFile_congr d.dCcsdsCipHdr hclean.1 hclean.2 hclean'.1 hclean'.2 fuel
      cell) hreturns
  cases o with
  | error e => cases heq
  | ok r =>
    obtain ⟨status', c', files⟩ := r
    simp only [Outcome.lift, Except.map, Except.ok.injEq, Prod.mk.injEq] at heq
    obtain ⟨-, -, rfl⟩ := heq
    exact ⟨status', c', hreturns'⟩

/-- `decompress_init` allocates nothing. -/
theorem DecompressorImpl.decompressInit_sizes {api : Aec σ} {d d' : DecompressorImpl σ}
    {fs fs' : FileSystem} {fin fout : String} {status : Int}
    (h : d.decompressInit api fs fin fout = .ok (status, d', fs')) :
    d'.dTmpStream.size = d.dTmpStream.size ∧ d'.dOut.size = d.dOut.size := by
  unfold decompressInit readHeader at h
  split at h
  · cases h
  · next d₁ hread =>
    have hkept : d₁.dTmpStream = d.dTmpStream ∧ d₁.dOut = d.dOut := by
      split at hread
      · cases hread
      · cases hread
        exact ⟨rfl, rfl⟩
    dsimp only at h
    split_ifs at h <;> cases h <;> exact ⟨congrArg _ hkept.1, congrArg _ hkept.2⟩

variable {enc : Aec σ} {dec : Aec τ} {fuel : Nat}

/-- No call changes the kind of the object or the sizes of its buffers. -/
theorem Codec.call_decompressor {d : DecompressorImpl τ} {o : Codec σ τ} {k : Call}
    {fs fs' : FileSystem} {status : Int}
    (h : Codec.call enc dec fuel fs k (.decompressor d : Codec σ τ) = some (.ok (status, o, fs'))) :
    ∃ d', o = .decompressor d' ∧ d'.dTmpStream.size = d.dTmpStream.size
      ∧ d'.dOut.size = d.dOut.size := by
  cases k with
  | decompressInit fin fout =>
    obtain ⟨d', hrun, rfl⟩ := eq_of_lift (Option.some.inj h)
    exact ⟨d', rfl, DecompressorImpl.decompressInit_sizes hrun⟩
  | decompress cell =>
    obtain ⟨r, hrun, hlift⟩ := Option.map_eq_some_iff.mp h
    obtain ⟨b, rfl, rfl⟩ := eq_of_lift hlift
    exact ⟨_, rfl, rfl, rfl⟩
  | decompressFin =>
    obtain ⟨b, hrun, rfl⟩ := eq_of_lift (Option.some.inj h)
    exact ⟨_, rfl, rfl, rfl⟩
  | streamDecompress inbuf =>
    obtain ⟨c, hrun, rfl⟩ := eq_of_lift (Option.some.inj h)
    have hkeeps := CodecImpl.streamCode_keeps hrun
    exact ⟨_, rfl, hkeeps.tmpSize, hkeeps.outSize⟩
  | streamDecompressFin =>
    obtain ⟨c, hrun, rfl⟩ := eq_of_lift (Option.some.inj h)
    have hkeeps := CodecImpl.streamFin_keeps hrun
    exact ⟨_, rfl, hkeeps.tmpSize, hkeeps.outSize⟩
  | _ => cases h

/-- **Run rule.** -/
theorem solo_decompressor {ks : List Call} {x x' : Client σ τ} {fs fs' : FileSystem}
    {d : DecompressorImpl τ} (hx : x.object = .decompressor d)
    (h : solo (Client.call enc dec fuel) ks x fs = some (x', fs')) :
    ∃ d', x'.object = .decompressor d' ∧ d'.dTmpStream.size = d.dTmpStream.size
      ∧ d'.dOut.size = d.dOut.size := by
  induction ks generalizing x d fs with
  | nil =>
    cases h
    exact ⟨d, hx, rfl, rfl⟩
  | cons k ks ih =>
    obtain ⟨status, o, fs₁, hcall, hrest⟩ := Client.solo_cons_inv h
    rw [hx] at hcall
    obtain ⟨d₁, rfl, htmp, hout⟩ := Codec.call_decompressor hcall
    obtain ⟨d', hobject, htmp', hout'⟩ := ih rfl hrest
    exact ⟨d', hobject, htmp'.trans htmp, hout'.trans hout⟩

/-- **Sessions on a clean decompressor are isolated.** After any calls on a decompressor, in any
order and whatever they returned, a session that finds its object clean leaves the files that it
leaves on a new decompressor, in whatever memory that is constructed. For a streaming session libaec
fails silently: behind a failing call that makes bytes, the next write can take bytes of an earlier
session from `d_out`. -/
theorem decompressor_isolated {storage storage' : ObjectStorage τ} {ks : List Call}
    {x : Client σ τ} {fs₀ fs₁ : FileSystem}
    (hrun : solo (Client.call enc dec fuel) ks (newDecompressor storage) fs₀ = some (x, fs₁))
    {d : DecompressorImpl τ} (hobject : x.object = .decompressor d) {s : DecoderSession}
    (silent : s.Streams → dec.FailsSilently) (hclean : d.Clean s) (fs fs' : FileSystem) :
    d.Writes dec fs s fs' ↔ (DecompressorImpl.construct storage').Writes dec fs s fs' := by
  cases s with
  | file fin fout cell =>
    have hnew : (DecompressorImpl.construct storage').Clean (.file fin fout cell) := ⟨rfl, rfl⟩
    exact ⟨DecompressorImpl.writes_file hclean hnew, DecompressorImpl.writes_file hnew hclean⟩
  | stream fin fout bufs =>
    obtain ⟨⟨hin, hout⟩, havail, htotal⟩ := hclean
    have silent' : dec.FailsSilently := silent trivial
    obtain ⟨d', hd', htmp, hsize⟩ := solo_decompressor rfl hrun
    cases hobject.symm.trans hd'
    change (∃ status c, _ = _) ↔ (∃ status c, _ = _)
    rw [DecompressorImpl.streamDecompressSession_iff silent' hin hout havail htotal htmp.ge hsize,
      DecompressorImpl.streamDecompressSession_iff silent' rfl rfl rfl rfl (Nat.le_refl _) rfl]
    simp only [d.fileParams_congr (DecompressorImpl.construct storage')]

open CodecImpl in
/-- After a session that was given up, a streaming session comes out as on a new object. -/
theorem decompressor_isolated_givenUp :
    let archive := (zeroedHeader (commandLineConfig 1 1 1 0 8 1 64)).headerBytes ++ [3, 5]
    ∃ (x : Client (Given U8) (Given U8)) (fs₁ : FileSystem) (d : DecompressorImpl (Given U8)),
      solo (Client.call copying copying 0) [.decompressInit "in.iqz" "out", .decompressFin]
          (newDecompressor (zeroStorage _)) (fileOf archive) = some (x, fs₁)
        ∧ x.object = .decompressor d
        ∧ ∀ fs fs', d.Writes copying fs (.stream "b.iqz" "b" [oneByte 1]) fs'
          ↔ (DecompressorImpl.construct (zeroStorage _)).Writes copying fs
            (.stream "b.iqz" "b" [oneByte 1]) fs' := by
  intro archive
  have silent : copying.FailsSilently := fun _ _ herr => absurd rfl herr
  obtain ⟨x, fs₁, d, hrun, hobject, hclean⟩ : ∃ (x : Client (Given U8) (Given U8))
      (fs₁ : FileSystem) (d : DecompressorImpl (Given U8)),
      solo (Client.call copying copying 0) [.decompressInit "in.iqz" "out", .decompressFin]
          (newDecompressor (zeroStorage _)) (fileOf archive) = some (x, fs₁)
        ∧ x.object = .decompressor d ∧ d.Clean (.stream "b.iqz" "b" [oneByte 1]) :=
    ⟨_, _, _, rfl, rfl, ⟨rfl, rfl⟩, rfl, rfl⟩
  exact ⟨x, fs₁, d, hrun, hobject, decompressor_isolated hrun hobject (fun _ => silent) hclean⟩

end Isolation

end IQzip
