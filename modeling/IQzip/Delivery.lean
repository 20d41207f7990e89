import IQzip.Calls
import IQzip.Library.RechunkRuns

/-! # What a streaming session delivers

A caller passes buffers to `stream_compress` and may go on after a call that failed.

* `stream_conservation`: the blocks whose calls succeeded, what the coder read of them and what it
  left, and behind them what the object still holds are, in order, what the calls took. A call that
  returns 0 took its whole buffer, a failing one a beginning of it. Of the coder it is assumed that
  a failing call produces and counts nothing.
* `stream_split`: when all calls return 0, it does not matter how the bytes were cut. Nothing is
  assumed of the coder. -/

namespace IQzip

open Library CodecImpl

variable {σ τ : Type} {enc : Aec σ} (dec : Aec τ) (fuel : Nat) {fs₀ fs : FileSystem}
  {fout : String} {base : List U8} {c : CodecImpl σ} {r : Rechunker σ U8 U8}

/-! ## Runs of calls -/

/-- Buffers in order are pushes in order, and the statuses are theirs. -/
theorem CodecImpl.Represents.solo (h : Represents fs₀ fout base c fs r) {bufs : List InBuf}
    (hgood : r.PushesOk enc.coder streamChunk chunk (bufs.map InBuf.bytes) ∨ enc.FailsSilently)
    (statuses : List Int) :
    ∃ c' fs', solo (Client.call enc dec fuel) (bufs.map .streamCompress)
        { object := .compressor c, statuses } fs
      = some ({ object := .compressor c'
                statuses := statuses
                  ++ (r.pushAll enc.coder streamChunk chunk (bufs.map InBuf.bytes)).1 }, fs')
      ∧ Represents fs₀ fout base c' fs'
        (r.pushAll enc.coder streamChunk chunk (bufs.map InBuf.bytes)).2 := by
  induction bufs generalizing c fs r statuses with
  | nil =>
    refine ⟨c, fs, ?_, h⟩
    simp only [List.map_nil, Rechunker.pushAll, List.append_nil]
    rfl
  | cons inbuf bufs ih =>
    obtain ⟨c', fs', hcode, hnext⟩ := h.streamCode enc inbuf
    obtain ⟨c'', fs'', hrest, hlast⟩ := ih (hnext (hgood.imp_left And.left))
      (hgood.imp_left And.right) (statuses ++ [(r.push enc.coder streamChunk chunk inbuf.bytes).1])
    refine ⟨c'', fs'', ?_, hlast⟩
    have hcall : Client.call enc dec fuel (.streamCompress inbuf)
        { object := .compressor c, statuses } fs
        = some ({ object := .compressor c'
                  statuses := statuses
                    ++ [(r.push enc.coder streamChunk chunk inbuf.bytes).1] }, fs') := by
      simp only [Client.call, Codec.call, streamCompress, hcode]
      rfl
    rw [List.map_cons, Library.solo, hcall]
    refine hrest.trans ?_
    rw [List.append_assoc]
    rfl

/-- A run adds statuses to those it finds. -/
theorem Client.statuses_prefix {ks : List Call} {x y : Client σ τ} {fs' : FileSystem}
    (h : Library.solo (Client.call enc dec fuel) ks x fs = some (y, fs')) :
    x.statuses <+: y.statuses := by
  induction ks generalizing x fs with
  | nil =>
    cases h
    exact List.prefix_rfl
  | cons k ks ih =>
    obtain ⟨status, object, fs₁, -, hrest⟩ := Client.solo_cons_inv h
    exact (List.prefix_append x.statuses [status]).trans (ih hrest)

/-- **Buffers whose calls all return 0** go through: up to the first call that fails, it does not
matter what a failing call does. -/
theorem CodecImpl.Represents.pushesOk_of_zeros (h : Represents fs₀ fout base c fs r)
    {bufs : List InBuf} {ks : List Call} {statuses : List Int} {y : Client σ τ} {fs' : FileSystem}
    (hrun : Library.solo (Client.call enc dec fuel) (bufs.map .streamCompress ++ ks)
      { object := .compressor c, statuses } fs = some (y, fs'))
    (hzeros : statuses ++ List.replicate bufs.length 0 <+: y.statuses) :
    r.PushesOk enc.coder streamChunk chunk (bufs.map InBuf.bytes) := by
  induction bufs generalizing c fs r statuses with
  | nil => trivial
  | cons inbuf bufs ih =>
    obtain ⟨c', fs₁, hcode, hnext⟩ := h.streamCode enc inbuf
    obtain ⟨status, object, fs₂, hcall, hrest⟩ := Client.solo_cons_inv hrun
    simp only [Codec.call, streamCompress, hcode] at hcall
    cases hcall
    -- the first status of the run is that of the first push
    have hpushed := Client.statuses_prefix dec fuel hrest
    rw [List.length_cons, List.replicate_succ, List.append_cons] at hzeros
    have hfirst := List.prefix_of_prefix_length_le ((List.prefix_append _ _).trans hzeros) hpushed
      (by rw [List.length_append, List.length_append]; rfl)
    have hok : (r.push enc.coder streamChunk chunk inbuf.bytes).1 = 0 :=
      (List.singleton_inj.mp (List.append_cancel_left
        (hfirst.eq_of_length (by rw [List.length_append, List.length_append]; rfl)))).symm
    rw [hok] at hrest
    exact ⟨hok, ih (hnext (Or.inl hok)) hrest hzeros⟩

/-- The end function returns what the coder's own returns. -/
theorem IqzipImpl.fin_status (api : Aec σ) {c : IqzipImpl σ} {s : σ} (fs : FileSystem)
    (hs : c.dStrm.state = some s) : ∃ c', c.fin api fs = .ok (api.fin s, c', fs) := by
  unfold fin Aec.finish
  simp only [hs]
  split_ifs with herr
  · exact ⟨_, rfl⟩
  · rw [not_not.mp herr]
    exact ⟨_, rfl⟩

/-- What `stream_compress_fin` returns. -/
def lastStatus (api : Aec σ) (r : Rechunker σ U8 U8) : Int :=
  if (api.coder.call r.state .flush r.carry chunk).status = 0 then
    api.fin (api.coder.call r.state .flush r.carry chunk).next
  else -1

/-- **The end of a session** is a matter of what the object stands for. -/
theorem CodecImpl.Represents.solo_fin (h : Represents fs₀ fout base c fs r) (enc : Aec σ)
    (statuses : List Int) :
    ∃ c', Client.call enc dec fuel .streamCompressFin { object := .compressor c, statuses } fs
      = some ({ object := .compressor c', statuses := statuses ++ [lastStatus enc r] },
        fs₀.put fout (base ++ r.finish enc.coder .flush chunk)) := by
  have hmade := enc.coder.produced_le r.state .flush r.carry chunk
  obtain ⟨c', hend⟩ : ∃ c', c.streamFin enc .flush fs
      = .ok (lastStatus enc r, c', fs₀.put fout (base ++ r.finish enc.coder .flush chunk)) := by
    unfold CodecImpl.streamFin lastStatus
    by_cases hok : (enc.coder.call r.state .flush r.carry chunk).status = 0
    · have hcount := enc.coder.counted_eq _ _ _ _ hok
      simp only [h.codeStream, h.writeProduced hcount hmade, Rechunker.finish, if_pos hok]
      rw [if_neg (show ¬ _ ≠ aecOk from not_not_intro hok)]
      obtain ⟨base', hfin⟩ := IqzipImpl.fin_status enc (fs₀.put fout (base ++ (r.written
        ++ (enc.coder.call r.state .flush r.carry chunk).produced)))
        (show (c.coded (enc.coder.call r.state .flush r.carry chunk)).dStrm.state = some _ from rfl)
      simp only [hfin]
      exact ⟨_, rfl⟩
    · simp only [h.codeStream, Rechunker.finish, if_neg hok]
      rw [if_pos (show _ ≠ aecOk from hok), ← h.files]
      exact ⟨_, rfl⟩
  refine ⟨c', ?_⟩
  simp only [Client.call, Codec.call, streamCompressFin, hend]
  rfl

/-! ## New compressors -/

section New

variable {cfg : Config} (storage : ObjectStorage σ) {s₀ : σ}

/-- The init of a session on a new compressor. -/
theorem init_newCompressor (hres : 1 ≤ cfg.sampleResolution) (hw : fs.writable fout = true)
    (hinit : (enc.init (aecParamsOf cfg)).2 = some s₀) :
    ∃ (c : CodecImpl σ) (fs' : FileSystem),
      Client.call enc dec fuel (.streamCompressInit fout) (newCompressor storage cfg) fs
        = some ({ object := .compressor c, statuses := [(enc.init (aecParamsOf cfg)).1] }, fs')
      ∧ Represents (fs.put fout (IqzipCompressionHeader.construct storage.header cfg).headerBytes)
        fout (IqzipCompressionHeader.construct storage.header cfg).headerBytes c fs'
        (Rechunker.start s₀) := by
  have htmp : streamChunk ≤ (CompressorImpl.construct storage cfg).dTmpStream.size :=
    Nat.le_mul_of_pos_left streamChunk hres
  obtain ⟨c, hopen, hstart⟩ := streamCompressInit_represents
    (c := CompressorImpl.construct storage cfg) rfl hw rfl rfl htmp rfl hinit
  refine ⟨c, _, ?_, hstart⟩
  simp only [Client.call, newCompressor, Codec.call, hopen]
  rfl

/-- A session on a new compressor, up to its last buffer. -/
theorem solo_newCompressor (hres : 1 ≤ cfg.sampleResolution) (hw : fs.writable fout = true)
    (hinit : (enc.init (aecParamsOf cfg)).2 = some s₀) {bufs : List InBuf}
    (hgood : (Rechunker.start s₀).PushesOk enc.coder streamChunk chunk (bufs.map InBuf.bytes)
      ∨ enc.FailsSilently) :
    ∃ c fs', solo (Client.call enc dec fuel)
        (.streamCompressInit fout :: bufs.map .streamCompress) (newCompressor storage cfg) fs
      = some ({ object := .compressor c
                statuses := (enc.init (aecParamsOf cfg)).1
                  :: ((Rechunker.start s₀).pushAll enc.coder streamChunk chunk
                    (bufs.map InBuf.bytes)).1 }, fs')
      ∧ Represents (fs.put fout (IqzipCompressionHeader.construct storage.header cfg).headerBytes)
        fout (IqzipCompressionHeader.construct storage.header cfg).headerBytes c fs'
        ((Rechunker.start s₀).pushAll enc.coder streamChunk chunk (bufs.map InBuf.bytes)).2 := by
  obtain ⟨c, fs₁, hcall, hstart⟩ := init_newCompressor dec fuel storage hres hw hinit
  obtain ⟨c', fs', hrun, hrep⟩ := hstart.solo dec fuel hgood [(enc.init (aecParamsOf cfg)).1]
  refine ⟨c', fs', ?_, hrep⟩
  rw [Library.solo, hcall]
  exact hrun

/-- **Where the bytes go.** Libaec is any coder whose failing calls produce and count nothing. For
every sequence of buffers, whether their calls fail or not: the output file is the header and what
the coder made in the calls that succeeded. The blocks of these calls, each in the part that the
call read and the part that it left, and behind them the bytes that are still carried are in order
what the calls took of the buffers. What a call that succeeded left of its block is not offered
again. -/
theorem stream_conservation (silent : enc.FailsSilently) (hres : 1 ≤ cfg.sampleResolution)
    (hw : fs.writable fout = true) (hinit : (enc.init (aecParamsOf cfg)).2 = some s₀)
    (bufs : List InBuf) :
    ∃ (c : CodecImpl σ) (fs' : FileSystem) (statuses : List Int) (done : List (Cut U8))
      (made : List U8) (delivered : List (List U8)) (s : σ),
      solo (Client.call enc dec fuel) (.streamCompressInit fout :: bufs.map .streamCompress)
          (newCompressor storage cfg) fs
        = some ({ object := .compressor c
                  statuses := (enc.init (aecParamsOf cfg)).1 :: statuses }, fs')
      ∧ fs'.content fout
        = some ((IqzipCompressionHeader.construct storage.header cfg).headerBytes ++ made)
      ∧ c.dStrm.state = some s ∧ enc.coder.History chunk s₀ s done made
      ∧ (∀ k ∈ done, k.block.length = streamChunk)
      ∧ List.Forall₂ (fun d (x : List U8 × Int) => Delivers d x.1 x.2) delivered
        ((bufs.map InBuf.bytes).zip statuses)
      ∧ Cut.items done ++ c.dTmpStream.load 0 c.dStreamAvailIn = delivered.flatten := by
  have hgood : (Rechunker.start s₀).PushesOk enc.coder streamChunk chunk (bufs.map InBuf.bytes)
      ∨ enc.FailsSilently := Or.inr silent
  obtain ⟨c, fs', hrun, hrep⟩ := solo_newCompressor dec fuel storage hres hw hinit hgood
  obtain ⟨done, delivered, hhistory, hdelivers, hfits, heq⟩ := Rechunker.pushAll_history
    (r := Rechunker.start s₀) (show 0 < streamChunk by decide) (bufs.map InBuf.bytes) .start
    ⟨Nat.zero_le _, List.forall_mem_nil _⟩
  refine ⟨c, fs', _, done, _, delivered, _, hrun, ?_, hrep.state, hhistory, hfits.blocks,
    hdelivers, ?_⟩
  · rw [hrep.files, FileSystem.content_put_self]
  · rw [hrep.carry, heq]
    rfl

/-- Two buffers of one byte are carried. -/
theorem stream_conservation_twoBytes :
    ∃ (c : CodecImpl (Given U8)) (fs' : FileSystem) (statuses : List Int) (done : List (Cut U8))
      (delivered : List (List U8)),
      solo (Client.call copying copying 0)
          (.streamCompressInit "a.iqz" :: [oneByte 1, oneByte 2].map .streamCompress)
          (newCompressor (zeroStorage _) byteConfig) .empty
        = some ({ object := .compressor c, statuses := aecOk :: statuses }, fs')
      ∧ List.Forall₂ (fun d (x : List U8 × Int) => Delivers d x.1 x.2) delivered
        (([oneByte 1, oneByte 2].map InBuf.bytes).zip statuses)
      ∧ Cut.items done ++ c.dTmpStream.load 0 c.dStreamAvailIn = delivered.flatten := by
  have silent : copying.FailsSilently := fun _ _ herr => absurd rfl herr
  have hw : FileSystem.empty.writable "a.iqz" = true := rfl
  have hinit : (copying.init (aecParamsOf byteConfig)).2 = some Given.start := rfl
  obtain ⟨c, fs', statuses, done, -, delivered, -, hrun, -, -, -, -, hdelivers, heq⟩ :=
    stream_conservation copying 0 (zeroStorage _) silent (by decide) hw hinit
      [oneByte 1, oneByte 2]
  exact ⟨c, fs', statuses, done, delivered, hrun, hdelivers, heq⟩

/-- The calls of a whole session. -/
def sessionCalls (fout : String) (bufs : List InBuf) : List Call :=
  .streamCompressInit fout :: bufs.map .streamCompress ++ [.streamCompressFin]

/-- **A whole session on a new compressor** whose buffers go through: the statuses and the files. -/
theorem solo_session (hres : 1 ≤ cfg.sampleResolution) (hw : fs.writable fout = true)
    (hinit : (enc.init (aecParamsOf cfg)).2 = some s₀) {bufs : List InBuf}
    (hok : (Rechunker.start s₀).PushesOk enc.coder streamChunk chunk (bufs.map InBuf.bytes)) :
    let outs := (Rechunker.start s₀).pushAll enc.coder streamChunk chunk (bufs.map InBuf.bytes)
    ∃ x, solo (Client.call enc dec fuel) (sessionCalls fout bufs) (newCompressor storage cfg) fs
        = some (x, fs.put fout ((IqzipCompressionHeader.construct storage.header cfg).headerBytes
          ++ outs.2.finish enc.coder .flush chunk))
      ∧ x.statuses = (enc.init (aecParamsOf cfg)).1 :: outs.1 ++ [lastStatus enc outs.2] := by
  intro outs
  obtain ⟨c, fs', hrun, hrep⟩ := solo_newCompressor dec fuel storage hres hw hinit (Or.inl hok)
  obtain ⟨c', hend⟩ := hrep.solo_fin dec fuel enc ((enc.init (aecParamsOf cfg)).1 :: outs.1)
  rw [FileSystem.put_put] at hend
  refine ⟨{ object := .compressor c', statuses := _ }, ?_, rfl⟩
  rw [sessionCalls, solo_append, hrun]
  simp only [Option.bind_some, Library.solo]
  rw [hend]
  rfl

/-- **How the bytes are cut plays no role.** For every coder: when all buffers of a session on a new
compressor go through, then so do those of a session with the same bytes cut in another way, and
both sessions return the same at their ends and leave the same files. -/
theorem stream_split (hres : 1 ≤ cfg.sampleResolution)
    (hw : fs.writable fout = true) (hinit : (enc.init (aecParamsOf cfg)).2 = some s₀)
    {bufs bufs' : List InBuf} (hsame : bufs'.flatMap InBuf.bytes = bufs.flatMap InBuf.bytes)
    {x : Client σ τ} {fs' : FileSystem} {first last : Int}
    (hrun : solo (Client.call enc dec fuel) (sessionCalls fout bufs) (newCompressor storage cfg) fs
      = some (x, fs'))
    (hzero : x.statuses = first :: List.replicate bufs.length 0 ++ [last]) :
    ∃ x', solo (Client.call enc dec fuel) (sessionCalls fout bufs') (newCompressor storage cfg) fs
        = some (x', fs')
      ∧ x'.statuses = first :: List.replicate bufs'.length 0 ++ [last] := by
  have hok : (Rechunker.start s₀).PushesOk enc.coder streamChunk chunk
      (bufs.map InBuf.bytes) := by
    obtain ⟨c, fs₁, hcall, hstart⟩ := init_newCompressor dec fuel storage hres hw hinit
    have hrest := hrun
    rw [sessionCalls, List.cons_append, Library.solo, hcall, Option.bind_some] at hrest
    refine hstart.pushesOk_of_zeros dec fuel hrest ?_
    have hfirst := Client.statuses_prefix dec fuel hrest
    rw [hzero, List.cons_append, List.cons_prefix_cons] at hfirst
    rw [hzero, hfirst.1]
    exact List.prefix_append ..
  -- with every status zero, a run of buffers is a matter of the bytes
  have hpos : 0 < streamChunk := by decide
  have hall := fun bs : List (List U8) => @Rechunker.pushesOk_iff _ _ _ enc.coder streamChunk chunk
    hpos bs (Rechunker.start s₀) hpos
  obtain ⟨hiff, hleft⟩ := hall (bufs.map InBuf.bytes)
  obtain ⟨hiff', hleft'⟩ := hall (bufs'.map InBuf.bytes)
  rw [← List.flatMap_def] at hiff hleft hiff' hleft'
  rw [hsame] at hiff' hleft'
  have hok' := hiff'.mpr (hiff.mp hok)
  obtain ⟨y, hy, hstatuses⟩ := solo_session dec fuel storage hres hw hinit hok
  obtain ⟨y', hy', hstatuses'⟩ := solo_session dec fuel storage hres hw hinit hok'
  rw [hrun] at hy
  cases hy
  rw [hzero, (Rechunker.pushAll_fst_iff _ _).mpr hok, List.length_map, List.cons_append,
    List.cons_append, List.cons.injEq] at hstatuses
  obtain ⟨rfl, hstatuses⟩ := hstatuses
  have hlast := List.append_cancel_left hstatuses
  have hend : ((Rechunker.start s₀).pushAll enc.coder streamChunk chunk (bufs'.map InBuf.bytes)).2
      = ((Rechunker.start s₀).pushAll enc.coder streamChunk chunk (bufs.map InBuf.bytes)).2 := by
    rw [Rechunker.pushAll_snd, Rechunker.pushAll_snd, hleft hok, hleft' hok']
  rw [hend] at hy' hstatuses'
  rw [(Rechunker.pushAll_fst_iff _ _).mpr hok', List.length_map, ← List.singleton_inj.mp hlast]
    at hstatuses'
  exact ⟨y', hy', hstatuses'⟩

/-- Two bytes in one buffer. -/
def bothBytes : InBuf := { bytes := [1, 2], bounded := Nat.lt_two_pow_self.trans' (by decide) }

/-- Two bytes, one at a time or together. -/
theorem stream_split_twoBytes :
    ∃ (x x' : Client (Given U8) (Given U8)) (fs' : FileSystem),
      solo (Client.call copying copying 0) (sessionCalls "a.iqz" [oneByte 1, oneByte 2])
          (newCompressor (zeroStorage _) byteConfig) .empty = some (x, fs')
        ∧ solo (Client.call copying copying 0) (sessionCalls "a.iqz" [bothBytes])
          (newCompressor (zeroStorage _) byteConfig) .empty = some (x', fs') := by
  have hres : 1 ≤ byteConfig.sampleResolution := by decide
  have hw : FileSystem.empty.writable "a.iqz" = true := rfl
  have hinit : (copying.init (aecParamsOf byteConfig)).2 = some Given.start := rfl
  have hsame : [bothBytes].flatMap InBuf.bytes = [oneByte 1, oneByte 2].flatMap InBuf.bytes := rfl
  -- neither byte fills a block
  have hok : (Rechunker.start Given.start).PushesOk copying.coder streamChunk chunk
      ([oneByte 1, oneByte 2].map InBuf.bytes) := by
    have hlt : 0 < streamChunk := by decide
    have hone : (Rechunker.start Given.start : Rechunker (Given U8) U8 U8).push copying.coder
        streamChunk chunk [1, 2] = (0, _) :=
      Rechunker.push_of_lt (show 2 < streamChunk by decide)
    exact (Rechunker.pushesOk_iff hlt (r := Rechunker.start Given.start) hlt).1.mpr
      (congrArg Prod.fst hone)
  obtain ⟨x, hrun, hstatuses⟩ := solo_session copying 0 (zeroStorage _) hres hw hinit hok
  rw [(Rechunker.pushAll_fst_iff _ _).mpr hok] at hstatuses
  obtain ⟨x', hrun', -⟩ := stream_split copying 0 (zeroStorage _) hres hw hinit hsame hrun
    hstatuses
  exact ⟨x, x', _, hrun, hrun'⟩

end New

end IQzip
