import IQzip.Compressor

/-! # What the member functions leave alone

No member function of a compressor changes its header, its scalar members or the size of its
buffers, whatever state it is called in and whatever status it returns. These are the parts that a
session takes over from the construction of the object. -/

namespace IQzip

open Library

variable {σ : Type}

/-- The header and the scalar members are the same. -/
structure IqzipImpl.Keeps (c c' : IqzipImpl σ) : Prop where
  header : c'.dCcsdsCipHdr = c.dCcsdsCipHdr
  config : c'.config = c.config

/-- So are the sizes of the buffers. -/
structure CodecImpl.Keeps (c c' : CodecImpl σ) : Prop
    extends IqzipImpl.Keeps c.toIqzipImpl c'.toIqzipImpl where
  tmpSize : c'.dTmpStream.size = c.dTmpStream.size
  outSize : c'.dOut.size = c.dOut.size

/-! ## File sessions -/

section Impl

variable {api : Aec σ} {c c' c'' : IqzipImpl σ} {fs fs' : FileSystem} {fin fout : String}
  {status : Int}

namespace IqzipImpl

/-- What does nothing keeps them. -/
theorem Keeps.refl (c : IqzipImpl σ) : c.Keeps c := ⟨rfl, rfl⟩

/-- One step after the other. -/
theorem Keeps.trans (h : c.Keeps c') (h' : c'.Keeps c'') : c.Keeps c'' :=
  ⟨h'.header.trans h.header, h'.config.trans h.config⟩

/-- The end function clears pointers and closes files. -/
theorem fin_keeps (h : c.fin api fs = .ok (status, c', fs')) : c.Keeps c' := by
  unfold fin at h
  split at h
  · cases h
  · split_ifs at h
    · cases h
      exact ⟨rfl, rfl⟩
    · cases h
      exact ⟨rfl, rfl⟩

/-- `compress_init` sets up the coder's stream and opens files. -/
theorem compressInit_keeps (h : c.compressInit api fs fin fout = .ok (status, c', fs')) :
    c.Keeps c' := by
  unfold compressInit at h
  dsimp only at h
  split at h
  · cases h
  · split_ifs at h
    · cases h
      exact ⟨rfl, rfl⟩
    · cases h
      exact ⟨rfl, rfl⟩
    · cases h
      exact ⟨rfl, rfl⟩

end IqzipImpl

namespace FileLoop

variable {l l' : FileLoop σ}

/-- Reading a chunk. -/
theorem refill_keeps (l : FileLoop σ) : l.impl.Keeps l.refill.impl := by
  unfold refill
  split
  · exact ⟨rfl, rfl⟩
  · exact ⟨rfl, rfl⟩

/-- A call of the coder. -/
theorem coded_keeps (l : FileLoop σ) (strm : AecStream σ) (out : Buffer) :
    l.impl.Keeps (l.coded strm out).impl := ⟨rfl, rfl⟩

/-- The bookkeeping of a turn. -/
theorem account_keeps (h : l.account = .ok l') : l.impl.Keeps l'.impl := by
  unfold account at h
  dsimp only at h
  split_ifs at h
  · split at h
    · cases h
    · cases h
      exact ⟨rfl, rfl⟩
  · cases h
    exact ⟨rfl, rfl⟩

/-- **A turn of the file loop.** -/
theorem step_keeps (h : l.step api = .inl l') : l.impl.Keeps l'.impl := by
  unfold step at h
  dsimp only at h
  split_ifs at h
  split at h
  · cases h
  · split_ifs at h
    split at h
    · cases h
    · next haccount =>
      cases h
      exact (l.refill_keeps.trans (l.refill.coded_keeps _ _)).trans (account_keeps haccount)

/-- The turn that leaves the loop with a status. -/
theorem step_keeps_of_exit (h : l.step api = .inr (.ok (status, l'))) : l.impl.Keeps l'.impl := by
  unfold step at h
  dsimp only at h
  split_ifs at h
  · split at h
    · cases h
    · split_ifs at h
      · cases h
        exact l.refill_keeps.trans (l.refill.coded_keeps _ _)
      · split at h
        · cases h
        · cases h
  · cases h
    exact .refl _

/-- The flush behind the loop. -/
theorem flush_keeps (h : l.flush api = .ok (status, c', fs')) : l.impl.Keeps c' := by
  unfold flush at h
  dsimp only at h
  split at h
  · cases h
  · split_ifs at h
    · cases h
      exact ⟨rfl, rfl⟩
    · split at h
      · cases h
      · cases h
        exact ⟨rfl, rfl⟩
    · cases h
      exact ⟨rfl, rfl⟩

end FileLoop

namespace IqzipImpl

/-- **`compress()`**, whatever it returns. -/
theorem compress_keeps {fuel : Nat} {cell : Nat → U8}
    (h : c.compress api fuel cell fs = some (.ok (status, c', fs'))) : c.Keeps c' := by
  unfold compress at h
  obtain ⟨result, hrun, hend⟩ := Option.map_eq_some_iff.mp h
  -- what every turn keeps, the loop keeps, however it is left
  have hloop : ∀ status l, result = .ok (status, l) → c.Keeps l.impl := by
    refine (exits_of_iterate hrun).post (fun l => c.Keeps l.impl)
      (fun result => ∀ status l, result = .ok (status, l) → c.Keeps l.impl) ?_ ?_ ⟨rfl, rfl⟩
    · intro l l' hkeeps hstep
      exact hkeeps.trans (FileLoop.step_keeps hstep)
    · rintro l _ hkeeps hstep status l' rfl
      exact hkeeps.trans (FileLoop.step_keeps_of_exit hstep)
  split at hend
  · cases hend
  · next l =>
    split_ifs at hend
    · cases hend
      exact hloop _ _ rfl
    · exact (hloop _ _ rfl).trans (FileLoop.flush_keeps hend)

/-- **A file session**: its three functions in a row. -/
theorem compressFile_keeps {fuel : Nat} {cell : Nat → U8}
    (h : c.compressFile api fuel cell fs fin fout = some (.ok (status, c', fs'))) : c.Keeps c' := by
  unfold compressFile at h
  split at h
  · cases h
  · next hinit =>
    obtain ⟨result, hrun, hend⟩ := Option.map_eq_some_iff.mp h
    split at hend
    · cases hend
    · exact ((compressInit_keeps hinit).trans (compress_keeps hrun)).trans (fin_keeps hend)

end IqzipImpl

end Impl

/-! ## Streaming sessions -/

/-- A copy keeps the size of its buffer. -/
theorem Buffer.size_of_memcpy {b b' : Buffer} {off n : Nat} {src : List U8}
    (h : b.memcpy off src n = .ok b') : b'.size = b.size := by
  unfold memcpy at h
  split_ifs at h
  cases h
  rfl

/-- A coder call keeps the size of its output buffer. -/
theorem Aec.size_of_code {api : Aec σ} {mode : FlushMode} {strm strm' : AecStream σ}
    {out out' : Buffer} {status : Int} (h : api.code mode strm out = .ok (status, strm', out')) :
    out'.size = out.size := by
  unfold code at h
  dsimp only at h
  split at h
  · cases h
  · split_ifs at h
    cases h
    rfl

namespace CodecImpl

variable {api : Aec σ} {c c' c'' : CodecImpl σ} {fs fs' : FileSystem} {fout : String}
  {mode : FlushMode} {status : Int} {inbuf : List U8}

/-- What does nothing keeps the buffers too. -/
theorem Keeps.refl (c : CodecImpl σ) : c.Keeps c := ⟨⟨rfl, rfl⟩, rfl, rfl⟩

/-- One step after the other. -/
theorem Keeps.trans (h : c.Keeps c') (h' : c'.Keeps c'') : c.Keeps c'' :=
  ⟨h.toKeeps.trans h'.toKeeps, h'.tmpSize.trans h.tmpSize, h'.outSize.trans h.outSize⟩

/-- A function that changes the base class only keeps what it keeps there. -/
theorem Keeps.of_base (h : c.toIqzipImpl.Keeps c'.toIqzipImpl) (htmp : c'.dTmpStream = c.dTmpStream)
    (hout : c'.dOut = c.dOut) : c.Keeps c' := ⟨h, by rw [htmp], by rw [hout]⟩

/-- `stream_compress_init` works on the base class. -/
theorem streamCompressInit_keeps (h : c.streamCompressInit api fs fout = .ok (status, c', fs')) :
    c.Keeps c' := by
  unfold streamCompressInit at h
  dsimp only at h
  split at h
  · cases h
  · split_ifs at h
    · cases h
      exact .of_base ⟨rfl, rfl⟩ rfl rfl
    · cases h
      exact .of_base ⟨rfl, rfl⟩ rfl rfl

/-- A call of the coder fills `d_out` without resizing it. -/
theorem codeStream_keeps (h : c.codeStream api mode = .ok (status, c')) : c.Keeps c' := by
  unfold codeStream at h
  split at h
  · cases h
  · next hcode =>
    cases h
    exact ⟨⟨rfl, rfl⟩, rfl, Aec.size_of_code hcode⟩

/-- The write behind it changes the output stream only. -/
theorem writeProduced_keeps (h : c.writeProduced fs = .ok (c', fs')) : c.Keeps c' := by
  rw [writeProduced_eq h]
  exact ⟨⟨rfl, rfl⟩, rfl, rfl⟩

/-- The bookkeeping behind a write. -/
theorem settle_keeps (c : CodecImpl σ) : c.Keeps c.settle := by
  unfold settle
  split_ifs
  · exact ⟨⟨rfl, rfl⟩, rfl, rfl⟩
  · exact .refl c

/-- **A block of the streaming loop.** -/
theorem streamBlock_keeps (h : c.streamBlock api fs inbuf = .ok (status, c', fs')) :
    c.Keeps c' := by
  unfold streamBlock at h
  split at h
  · cases h
  · next hcopy =>
    split at h
    · cases h
    · next hcode =>
      have hcoded := codeStream_keeps hcode
      -- the copy fills `d_tmp_stream`, the call fills `d_out`; neither is resized
      have hkeeps : c.Keeps _ :=
        ⟨hcoded.toKeeps, hcoded.tmpSize.trans (Buffer.size_of_memcpy hcopy), hcoded.outSize⟩
      split_ifs at h
      · cases h
        exact hkeeps
      · split at h
        · cases h
        · next hwrite =>
          cases h
          exact (hkeeps.trans (writeProduced_keeps hwrite)).trans (settle_keeps _)

/-- The leftover bytes. -/
theorem streamRest_keeps {nbytes : Nat}
    (h : c.streamRest fs inbuf nbytes = .ok (status, c', fs')) : c.Keeps c' := by
  unfold streamRest at h
  split_ifs at h
  · split at h
    · cases h
    · next hcopy =>
      cases h
      exact ⟨⟨rfl, rfl⟩, Buffer.size_of_memcpy hcopy, rfl⟩
  · cases h
    exact .refl _

/-- **The streaming loop.** -/
theorem streamLoop_keeps {nbytes : Nat} {remainder : Int}
    (h : c.streamLoop api fs inbuf nbytes remainder = .ok (status, c', fs')) : c.Keeps c' := by
  -- on the loop's own recursion: abort, failed call, next turn, leftover bytes
  induction c, fs, inbuf, nbytes, remainder using streamLoop.induct api with
  | case1 c fs inbuf nbytes remainder hgo e hblock =>
    rw [streamLoop, if_pos hgo, hblock] at h
    cases h
  | case2 c fs inbuf nbytes remainder hgo status' c₁ fs₁ hblock herr =>
    rw [streamLoop, if_pos hgo, hblock] at h
    simp only [if_pos herr] at h
    cases h
    exact streamBlock_keeps hblock
  | case3 c fs inbuf nbytes remainder hgo status' c₁ fs₁ hblock hok inbuf₁ nbytes₁ c₂ ih =>
    rw [streamLoop, if_pos hgo, hblock] at h
    simp only [if_neg hok] at h
    have hnext := ih h
    exact (streamBlock_keeps hblock).trans
      ⟨⟨hnext.header, hnext.config⟩, hnext.tmpSize, hnext.outSize⟩
  | case4 c fs inbuf nbytes remainder hstop =>
    rw [streamLoop, if_neg hstop] at h
    exact streamRest_keeps h

/-- **`stream_compress` and `stream_decompress`**, whatever they return. -/
theorem streamCode_keeps {inbuf : InBuf} (h : c.streamCode api fs inbuf = .ok (status, c', fs')) :
    c.Keeps c' := by
  unfold streamCode at h
  dsimp only at h
  split_ifs at h
  · split at h
    · cases h
    · next hcopy =>
      cases h
      exact ⟨⟨rfl, rfl⟩, Buffer.size_of_memcpy hcopy, rfl⟩
  · exact streamLoop_keeps h

/-- Any list of buffers. -/
theorem streamCodeAll_keeps {bufs : List InBuf} (h : c.streamCodeAll api fs bufs = .ok (c', fs')) :
    c.Keeps c' := by
  induction bufs generalizing c fs with
  | nil =>
    cases h
    exact .refl _
  | cons inbuf bufs ih =>
    unfold streamCodeAll at h
    split at h
    · cases h
    · next hcode => exact (streamCode_keeps hcode).trans (ih h)

/-- **`stream_compress_fin` and `stream_decompress_fin`.** -/
theorem streamFin_keeps (h : c.streamFin api mode fs = .ok (status, c', fs')) : c.Keeps c' := by
  unfold streamFin at h
  split at h
  · cases h
  · next hcode =>
    have hcoded := codeStream_keeps hcode
    split_ifs at h
    · cases h
      exact hcoded
    · split at h
      · cases h
      · next hwrite =>
        have hwritten := hcoded.trans (writeProduced_keeps hwrite)
        split at h
        · cases h
        · next hfin =>
          cases h
          exact hwritten.trans (.of_base (IqzipImpl.fin_keeps hfin) rfl rfl)

/-- **A streaming session**: init, buffers and end. -/
theorem streamCompressSession_keeps {bufs : List InBuf}
    (h : c.streamCompressSession api fs fout bufs = .ok (status, c', fs')) : c.Keeps c' := by
  unfold streamCompressSession at h
  split at h
  · cases h
  · next hinit =>
    split at h
    · cases h
    · next hcode =>
      exact ((streamCompressInit_keeps hinit).trans (streamCodeAll_keeps hcode)).trans
        (streamFin_keeps h)

end CodecImpl

end IQzip
