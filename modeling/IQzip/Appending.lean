import IQzip.Compressor
import IQzip.Decompressor

/-! # What coding may do to the files

Between an init function and the next one, the file streams of an object stay attached to their
files or are closed, and the only file that changes is the one the output stream is attached to: it
gets longer. This holds in whatever state a function is called, whatever libaec does and whatever
status is returned. -/

namespace IQzip

open Library

variable {σ : Type}

/-! ## Streams and their files -/

/-- The file an input stream is attached to. -/
def InputStream.path : InputStream → Option String
  | .closed => none
  | .opened path .. => some path

/-- The file an output stream is attached to. -/
def OutputStream.path : OutputStream → Option String
  | .closed => none
  | .opened path _ => some path

/-- A closed input stream is attached to no file. -/
@[simp] theorem InputStream.path_closed : InputStream.closed.path = none := rfl

/-- Nor is a closed output stream. -/
@[simp] theorem OutputStream.path_closed : OutputStream.closed.path = none := rfl

/-- Reading does not move a stream to another file. -/
@[simp] theorem InputStream.path_read (s : InputStream) (fs : FileSystem) (n : Nat) :
    (s.read fs n).2.path = s.path := by
  cases s with
  | closed => rfl
  | opened path pos fail => cases fail <;> rfl

/-- Nor does moving its read position. -/
@[simp] theorem InputStream.path_seekg (s : InputStream) (pos : Nat) :
    (s.seekg pos).path = s.path := by
  cases s with
  | closed => rfl
  | opened path pos fail => cases fail <;> rfl

/-- Opening attaches a stream to the file named, or leaves it where it was. -/
theorem InputStream.path_openFile (s : InputStream) (fs : FileSystem) (path : String) {p : String}
    (h : (s.openFile fs path).path = some p) : s.path = some p ∨ path = p := by
  cases s with
  | opened old pos fail => exact Or.inl h
  | closed =>
    unfold openFile at h
    dsimp only at h
    split_ifs at h
    · exact Or.inr (Option.some.inj h)
    · cases h

/-- So does opening for writing. -/
theorem OutputStream.path_openFile (s : OutputStream) (fs : FileSystem) (path : String)
    (app : Bool) {p : String} (h : (s.openFile fs path app).1.path = some p) :
    s.path = some p ∨ path = p := by
  cases s with
  | opened old fail => exact Or.inl h
  | closed =>
    unfold openFile at h
    by_cases hw : fs.writable path = true
    · simp only [if_pos hw] at h
      exact Or.inr (Option.some.inj h)
    · simp only [if_neg hw] at h
      cases h

/-- A write leaves its stream where it is, also when it fails. -/
theorem OutputStream.path_write {s s' : OutputStream} {fs fs' : FileSystem} {b : Buffer} {n : Nat}
    (h : s.write fs b n = .ok (s', fs')) : s'.path = s.path := by
  cases s with
  | closed =>
    cases h
    rfl
  | opened path fail =>
    cases fail with
    | true =>
      cases h
      rfl
    | false =>
      unfold write at h
      dsimp only at h
      split_ifs at h
      · cases h
        rfl
      · cases h
        rfl

/-! ## Growing files -/

/-- Only the file at `path` may differ, and by bytes at its end. -/
structure FileSystem.Grows (path : Option String) (fs fs' : FileSystem) : Prop where
  writable : fs'.writable = fs.writable
  others : ∀ ⦃p⦄, path ≠ some p → fs'.content p = fs.content p
  appended : ∀ p, fs.bytesAt p <+: fs'.bytesAt p

namespace FileSystem

variable {fs fs' fs'' : FileSystem} {path path' : Option String}

/-- Files that stay as they are. -/
theorem Grows.refl (path : Option String) (fs : FileSystem) : Grows path fs fs :=
  ⟨rfl, fun _ _ => rfl, fun _ => List.prefix_rfl⟩

/-- The second step may write where the first one did, or nowhere. -/
theorem Grows.trans (h : Grows path fs fs') (hpath : ∀ p, path' = some p → path = some p)
    (h' : Grows path' fs' fs'') : Grows path fs fs'' where
  writable := h'.writable.trans h.writable
  others := fun p hp => (h'.others (mt (hpath p) hp)).trans (h.others hp)
  appended := fun p => (h.appended p).trans (h'.appended p)

/-- The file at `path` with more bytes at its end. -/
theorem grows_put (fs : FileSystem) (path : String) (bytes : List U8) :
    Grows (some path) fs (fs.put path (fs.bytesAt path ++ bytes)) := by
  refine ⟨rfl, ?_, ?_⟩
  · intro p hp
    have hne : p ≠ path := fun heq => hp (congrArg some heq.symm)
    exact content_put_of_ne _ _ hne
  · intro p
    by_cases hp : p = path
    · subst hp
      rw [bytesAt_put_self]
      exact List.prefix_append ..
    · rw [bytesAt, bytesAt, content_put_of_ne _ _ hp]

/-- **A write appends to the file of its stream**, or changes no file. -/
theorem grows_write {s s' : OutputStream} {b : Buffer} {n : Nat}
    (h : s.write fs b n = .ok (s', fs')) : Grows s.path fs fs' := by
  cases s with
  | closed =>
    cases h
    exact .refl _ fs
  | opened path fail =>
    cases fail with
    | true =>
      cases h
      exact .refl _ fs
    | false =>
      unfold OutputStream.write at h
      dsimp only at h
      split_ifs at h
      · cases h
        exact .refl _ fs
      · cases h
        exact grows_put ..

end FileSystem

/-- A step that keeps the streams where they are, or closes them, and makes the output file grow. -/
structure IqzipImpl.Appends (c c' : IqzipImpl σ) (fs fs' : FileSystem) : Prop where
  input : ∀ ⦃p⦄, c'.inputStream.path = some p → c.inputStream.path = some p
  output : ∀ ⦃p⦄, c'.outputStream.path = some p → c.outputStream.path = some p
  files : fs.Grows c.outputStream.path fs'

section Impl

variable {api : Aec σ} {c c' c'' : IqzipImpl σ} {fs fs' fs'' : FileSystem} {status : Int}

namespace IqzipImpl

/-- One step after the other. -/
theorem Appends.trans (h : c.Appends c' fs fs') (h' : c'.Appends c'' fs' fs'') :
    c.Appends c'' fs fs'' where
  input := fun _ hp => h.input (h'.input hp)
  output := fun _ hp => h.output (h'.output hp)
  files := h.files.trans h.output h'.files

/-- A step that touches neither the streams nor the files. -/
theorem Appends.of_eq (hin : c'.inputStream = c.inputStream)
    (hout : c'.outputStream = c.outputStream) (fs : FileSystem) : c.Appends c' fs fs :=
  ⟨by rw [hin]; exact fun _ hp => hp, by rw [hout]; exact fun _ hp => hp, .refl _ fs⟩

/-- A step that writes to the output stream. -/
theorem Appends.of_write {b : Buffer} {n : Nat} (hin : c'.inputStream = c.inputStream)
    (h : c.outputStream.write fs b n = .ok (c'.outputStream, fs')) : c.Appends c' fs fs' :=
  ⟨by rw [hin]; exact fun _ hp => hp, by rw [OutputStream.path_write h]; exact fun _ hp => hp,
    FileSystem.grows_write h⟩

/-- The end function closes both streams or leaves them. -/
theorem fin_appends (h : c.fin api fs = .ok (status, c', fs')) : c.Appends c' fs fs' := by
  unfold fin at h
  split at h
  · cases h
  · split_ifs at h
    · cases h
      exact ⟨fun _ hp => hp, fun _ hp => hp, .refl _ fs⟩
    · -- both streams are closed
      cases h
      refine ⟨?_, ?_, .refl _ fs⟩
      · intro p hp
        cases hp
      · intro p hp
        cases hp

end IqzipImpl

namespace FileLoop

variable {l l' : FileLoop σ}

/-- Reading moves the read position only. -/
theorem refill_appends (l : FileLoop σ) : l.impl.Appends l.refill.impl l.fs l.refill.fs := by
  unfold refill
  split
  · refine ⟨?_, fun _ hp => hp, .refl _ _⟩
    intro p hp
    rwa [← InputStream.path_read l.impl.inputStream l.fs chunk]
  · exact ⟨fun _ hp => hp, fun _ hp => hp, .refl _ _⟩

/-- A call of the coder touches neither stream. -/
theorem coded_appends (l : FileLoop σ) (strm : AecStream σ) (out : Buffer) :
    l.impl.Appends (l.coded strm out).impl l.fs (l.coded strm out).fs :=
  ⟨fun _ hp => hp, fun _ hp => hp, .refl _ _⟩

/-- The bookkeeping writes to the output stream, or not at all. -/
theorem account_appends (h : l.account = .ok l') : l.impl.Appends l'.impl l.fs l'.fs := by
  unfold account at h
  dsimp only at h
  split_ifs at h
  · split at h
    · cases h
    · next hwrite =>
      cases h
      exact .of_write rfl hwrite
  · cases h
    exact ⟨fun _ hp => hp, fun _ hp => hp, .refl _ _⟩

/-- **A turn of the file loop.** -/
theorem step_appends (h : l.step api = .inl l') : l.impl.Appends l'.impl l.fs l'.fs := by
  unfold step at h
  dsimp only at h
  split_ifs at h
  split at h
  · cases h
  · split_ifs at h
    split at h
    · cases h
    · next haccount =>
      cases h
      exact (l.refill_appends.trans (l.refill.coded_appends _ _)).trans
        (account_appends haccount)

/-- The turn that leaves the loop with a status. -/
theorem step_appends_of_exit (h : l.step api = .inr (.ok (status, l'))) :
    l.impl.Appends l'.impl l.fs l'.fs := by
  unfold step at h
  dsimp only at h
  split_ifs at h
  · split at h
    · cases h
    · split_ifs at h
      · cases h
        exact l.refill_appends.trans (l.refill.coded_appends _ _)
      · split at h
        · cases h
        · cases h
  · cases h
    exact ⟨fun _ hp => hp, fun _ hp => hp, .refl _ _⟩

/-- The flush behind the loop. -/
theorem flush_appends (h : l.flush api = .ok (status, c', fs')) :
    l.impl.Appends c' l.fs fs' := by
  unfold flush at h
  dsimp only at h
  split at h
  · cases h
  · split_ifs at h
    · cases h
      exact ⟨fun _ hp => hp, fun _ hp => hp, .refl _ _⟩
    · split at h
      · cases h
      · next hwrite =>
        cases h
        exact .of_write rfl hwrite
    · cases h
      exact ⟨fun _ hp => hp, fun _ hp => hp, .refl _ _⟩

/-- **The loop**, however it is left. -/
theorem iterate_appends {fuel : Nat} {cell : Nat → U8}
    (h : iterate (FileLoop.step api) fuel (start c fs { size := chunk, cell := cell })
      = some (.ok (status, l))) : c.Appends l.impl fs l.fs := by
  refine (exits_of_iterate h).post (fun l => c.Appends l.impl fs l.fs)
    (fun result => ∀ status l, result = .ok (status, l) → c.Appends l.impl fs l.fs) ?_ ?_
    ⟨fun _ hp => hp, fun _ hp => hp, .refl _ fs⟩ status l rfl
  · intro l l' happends hstep
    exact happends.trans (step_appends hstep)
  · rintro l _ happends hstep status l' rfl
    exact happends.trans (step_appends_of_exit hstep)

end FileLoop

namespace IqzipImpl

/-- **`compress()`**, whatever it returns. -/
theorem compress_appends {fuel : Nat} {cell : Nat → U8}
    (h : c.compress api fuel cell fs = some (.ok (status, c', fs'))) : c.Appends c' fs fs' := by
  unfold compress at h
  obtain ⟨result, hrun, hend⟩ := Option.map_eq_some_iff.mp h
  split at hend
  · cases hend
  · have hloop := FileLoop.iterate_appends hrun
    split_ifs at hend
    · cases hend
      exact hloop
    · exact hloop.trans (FileLoop.flush_appends hend)

/-- **`decompress()`**, whatever it returns. -/
theorem decompress_appends {fuel : Nat} {cell : Nat → U8}
    (h : c.decompress api fuel cell fs = some (.ok (status, c', fs'))) : c.Appends c' fs fs' := by
  unfold decompress at h
  obtain ⟨result, hrun, hend⟩ := Option.map_eq_some_iff.mp h
  split at hend
  · cases hend
  · cases hend
    exact FileLoop.iterate_appends hrun

end IqzipImpl

end Impl

/-! ## The streaming functions -/

namespace CodecImpl

variable {api : Aec σ} {c c' : CodecImpl σ} {fs fs' : FileSystem} {mode : FlushMode} {status : Int}
  {inbuf : List U8}

/-- A coder call touches neither stream. -/
theorem codeStream_streams (h : c.codeStream api mode = .ok (status, c')) :
    c'.inputStream = c.inputStream ∧ c'.outputStream = c.outputStream := by
  unfold codeStream at h
  split at h
  · cases h
  · cases h
    exact ⟨rfl, rfl⟩

/-- Nor does the bookkeeping behind a write. -/
theorem settle_streams (c : CodecImpl σ) :
    c.settle.inputStream = c.inputStream ∧ c.settle.outputStream = c.outputStream := by
  unfold settle
  split_ifs <;> exact ⟨rfl, rfl⟩

/-- The write behind a call. -/
theorem writeProduced_appends (h : c.writeProduced fs = .ok (c', fs')) :
    c.Appends c'.toIqzipImpl fs fs' := by
  unfold writeProduced at h
  dsimp only at h
  split_ifs at h
  · split at h
    · cases h
    · next hwrite =>
      cases h
      exact .of_write rfl hwrite
  · cases h
    exact .of_eq rfl rfl fs

/-- **A block of the streaming loop.** -/
theorem streamBlock_appends (h : c.streamBlock api fs inbuf = .ok (status, c', fs')) :
    c.Appends c'.toIqzipImpl fs fs' := by
  unfold streamBlock at h
  split at h
  · cases h
  · split at h
    · cases h
    · next coded hcode =>
      obtain ⟨hin, hout⟩ := codeStream_streams hcode
      split_ifs at h
      · cases h
        exact .of_eq hin hout fs
      · split at h
        · cases h
        · next written _ hwrite =>
          obtain ⟨hin', hout'⟩ := written.settle_streams
          cases h
          have hcoded : c.Appends coded.toIqzipImpl fs fs := .of_eq hin hout fs
          exact (hcoded.trans (writeProduced_appends hwrite)).trans (.of_eq hin' hout' _)

/-- The leftover bytes are copied, and nothing is written. -/
theorem streamRest_appends {nbytes : Nat}
    (h : c.streamRest fs inbuf nbytes = .ok (status, c', fs')) :
    c.Appends c'.toIqzipImpl fs fs' := by
  unfold streamRest at h
  split_ifs at h
  · split at h
    · cases h
    · cases h
      exact ⟨fun _ hp => hp, fun _ hp => hp, .refl _ fs⟩
  · cases h
    exact ⟨fun _ hp => hp, fun _ hp => hp, .refl _ fs⟩

/-- **The streaming loop.** -/
theorem streamLoop_appends {nbytes : Nat} {remainder : Int}
    (h : c.streamLoop api fs inbuf nbytes remainder = .ok (status, c', fs')) :
    c.Appends c'.toIqzipImpl fs fs' := by
  -- on the loop's own recursion: abort, failed call, next turn, leftover bytes
  induction c, fs, inbuf, nbytes, remainder using streamLoop.induct api with
  | case1 c fs inbuf nbytes remainder hgo e hblock =>
    rw [streamLoop, if_pos hgo, hblock] at h
    cases h
  | case2 c fs inbuf nbytes remainder hgo status' c₁ fs₁ hblock herr =>
    rw [streamLoop, if_pos hgo, hblock] at h
    simp only [if_pos herr] at h
    cases h
    exact streamBlock_appends hblock
  | case3 c fs inbuf nbytes remainder hgo status' c₁ fs₁ hblock hok inbuf₁ nbytes₁ c₂ ih =>
    rw [streamLoop, if_pos hgo, hblock] at h
    simp only [if_neg hok] at h
    have hcleared : c₁.Appends c₂.toIqzipImpl fs₁ fs₁ :=
      ⟨fun _ hp => hp, fun _ hp => hp, .refl _ fs₁⟩
    exact ((streamBlock_appends hblock).trans hcleared).trans (ih h)
  | case4 c fs inbuf nbytes remainder hstop =>
    rw [streamLoop, if_neg hstop] at h
    exact streamRest_appends h

/-- **`stream_compress` and `stream_decompress`.** -/
theorem streamCode_appends {inbuf : InBuf}
    (h : c.streamCode api fs inbuf = .ok (status, c', fs')) : c.Appends c'.toIqzipImpl fs fs' := by
  unfold streamCode at h
  dsimp only at h
  split_ifs at h
  · split at h
    · cases h
    · cases h
      exact ⟨fun _ hp => hp, fun _ hp => hp, .refl _ fs⟩
  · exact streamLoop_appends h

/-- **`stream_compress_fin` and `stream_decompress_fin`.** -/
theorem streamFin_appends (h : c.streamFin api mode fs = .ok (status, c', fs')) :
    c.Appends c'.toIqzipImpl fs fs' := by
  unfold streamFin at h
  split at h
  · cases h
  · next hcode =>
    obtain ⟨hin, hout⟩ := codeStream_streams hcode
    have hcoded : c.Appends _ fs fs := .of_eq hin hout fs
    split_ifs at h
    · cases h
      exact hcoded
    · split at h
      · cases h
      · next hwrite =>
        split at h
        · cases h
        · next hfin =>
          cases h
          exact (hcoded.trans (writeProduced_appends hwrite)).trans (IqzipImpl.fin_appends hfin)

end CodecImpl

end IQzip
