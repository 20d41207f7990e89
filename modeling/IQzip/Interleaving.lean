import IQzip.Calls
import IQzip.Sessions

/-! # Objects that work side by side

A call reads the two files its object is attached to and those it names, and writes one of them; on
the rest of the files it does not depend. So objects with files of their own do not see each other,
in whatever order a program interleaves their calls: `interleaving_iff`.

A call on files of which a part has been replaced is a call on the old ones, as long as its own
files are in that part: each function has a lemma that says so, named after it. -/

namespace IQzip

open Library Store

variable {σ τ : Type}

/-! ## Files as a store -/

open Classical in
/-- The cells of a file system: what a path holds, and whether it can be written. -/
noncomputable instance : Store FileSystem String (Option (List U8) × Bool) where
  cell fs p := (fs.content p, fs.writable p)
  graft P s t :=
    { content := fun p => if p ∈ P then s.content p else t.content p
      writable := fun p => if p ∈ P then s.writable p else t.writable p }
  cell_graft_of_mem hk := by simp [hk]
  cell_graft_of_notMem hk := by simp [hk]
  ext := by
    intro s t h
    have hcontent : s.content = t.content := funext fun p => congrArg Prod.fst (h p)
    have hwritable : s.writable = t.writable := funext fun p => congrArg Prod.snd (h p)
    cases s
    cases t
    simp_all

namespace FileSystem

variable {P : Set String} {s t : FileSystem} {p : String}

/-- A cell is what a path holds and whether it can be written. -/
theorem cell_eq (fs : FileSystem) (p : String) : cell fs p = (fs.content p, fs.writable p) := rfl

/-- Cells agree when both do. -/
theorem cell_eq_iff : cell s p = cell t p ↔ s.content p = t.content p
    ∧ s.writable p = t.writable p := Prod.mk_inj

/-- At the paths of the object the content is that of its own file system. -/
theorem content_graft (hp : p ∈ P) : (graft P s t).content p = s.content p :=
  congrArg Prod.fst (cell_graft_of_mem hp : cell (graft P s t) p = cell s p)

/-- So is what can be written. -/
theorem writable_graft (hp : p ∈ P) : (graft P s t).writable p = s.writable p :=
  congrArg Prod.snd (cell_graft_of_mem hp : cell (graft P s t) p = cell s p)

/-- And the bytes that a stream reads. -/
theorem bytesAt_graft (hp : p ∈ P) : (graft P s t).bytesAt p = s.bytesAt p := by
  rw [bytesAt, content_graft hp, bytesAt]

/-- A write to one of the replaced files is a write to the old one. -/
theorem put_graft (hp : p ∈ P) (bytes : List U8) :
    (graft P s t).put p bytes = graft P (s.put p bytes) t := by
  apply Store.ext
  intro q
  by_cases hq : q ∈ P
  · rw [cell_graft_of_mem hq, cell_eq, cell_eq, writable_put, writable_graft hq, writable_put]
    by_cases heq : q = p
    · subst heq
      rw [content_put_self, content_put_self]
    · rw [content_put_of_ne _ _ heq, content_put_of_ne _ _ heq, content_graft hq]
  · have hne : q ≠ p := fun heq => hq (heq ▸ hp)
    rw [cell_eq, content_put_of_ne _ _ hne, writable_put, ← cell_eq,
      cell_graft_of_notMem hq, cell_graft_of_notMem hq]

end FileSystem

/-! ## Streams -/

/-- The stream is closed, or attached to one of the files. -/
def InputStream.Within (s : InputStream) (P : Set String) : Prop :=
  ∀ ⦃p⦄, s.path = some p → p ∈ P

/-- The stream is closed, or attached to one of the files. -/
def OutputStream.Within (s : OutputStream) (P : Set String) : Prop :=
  ∀ ⦃p⦄, s.path = some p → p ∈ P

section Streams

variable {P : Set String} {fs t : FileSystem} {path : String}

/-- An input stream inside `P` reads the same. -/
theorem InputStream.read_graft {s : InputStream} (hs : s.Within P) (n : Nat) :
    s.read (graft P fs t) n = s.read fs n := by
  cases s with
  | closed => rfl
  | opened path pos fail =>
    cases fail with
    | true => rfl
    | false => rw [read, read, FileSystem.bytesAt_graft (hs rfl)]

/-- It opens the same. -/
theorem InputStream.openFile_graft (s : InputStream) (hpath : path ∈ P) :
    s.openFile (graft P fs t) path = s.openFile fs path := by
  cases s with
  | opened old pos fail => rfl
  | closed => rw [openFile, openFile, FileSystem.content_graft hpath]

/-- An output stream inside `P` opens the same and truncates the same file. -/
theorem OutputStream.openFile_graft (s : OutputStream) (hpath : path ∈ P) (app : Bool) :
    s.openFile (graft P fs t) path app
      = ((s.openFile fs path app).1, graft P (s.openFile fs path app).2 t) := by
  cases s with
  | opened old fail => rfl
  | closed =>
    simp only [openFile, FileSystem.writable_graft hpath, FileSystem.bytesAt_graft hpath,
      FileSystem.put_graft hpath]
    split_ifs <;> rfl

/-- A write to a stream on one of the files. -/
theorem OutputStream.write_graft {s : OutputStream} (hs : s.Within P) (b : Buffer) (n : Nat) :
    s.write (graft P fs t) b n = (s.write fs b n).map fun r => (r.1, graft P r.2 t) := by
  cases s with
  | closed => rfl
  | opened path fail =>
    cases fail with
    | true => rfl
    | false =>
      have hpath : path ∈ P := hs rfl
      rw [write, write, FileSystem.bytesAt_graft hpath, FileSystem.put_graft hpath]
      split_ifs <;> rfl

end Streams

/-- The outcome with files outside `P` replaced by those of `t`. -/
noncomputable def Outcome.graft {β : Type} (P : Set String) (t : FileSystem) (o : Outcome β) :
    Outcome β :=
  o.map fun r => (r.1, r.2.1, Store.graft P r.2.2 t)

/-- An abort has no files. -/
@[simp] theorem Outcome.graft_error {β : Type} (P : Set String) (t : FileSystem) (e : Abort) :
    Outcome.graft P t (.error e : Outcome β) = .error e := rfl

/-- A return has them. -/
@[simp] theorem Outcome.graft_ok {β : Type} (P : Set String) (t : FileSystem)
    (r : Int × β × FileSystem) :
    Outcome.graft P t (.ok r : Outcome β) = .ok (r.1, r.2.1, Store.graft P r.2.2 t) := rfl

/-- Both streams of the object are closed, or attached to one of the files. -/
structure IqzipImpl.Within (c : IqzipImpl σ) (P : Set String) : Prop where
  input : c.inputStream.Within P
  output : c.outputStream.Within P

/-! ## The file functions -/

section Impl

variable {api : Aec σ} {P : Set String} {fs t : FileSystem} {fin fout : String}

/-- The header goes to a file of the object. -/
theorem IqzipCompressionHeader.writeHeaderToFile_graft (h : IqzipCompressionHeader)
    (hfout : fout ∈ P) : h.writeHeaderToFile (graft P fs t) fout
      = (h.writeHeaderToFile fs fout).map fun fs => graft P fs t := by
  rw [writeHeaderToFile, writeHeaderToFile, FileSystem.writable_graft hfout,
    FileSystem.put_graft hfout]
  split_ifs <;> rfl

/-- And comes from one. -/
theorem IqzipCompressionHeader.parseHeaderFromFile_graft (h : IqzipCompressionHeader)
    (hfin : fin ∈ P) : h.parseHeaderFromFile (graft P fs t) fin = h.parseHeaderFromFile fs fin := by
  rw [parseHeaderFromFile, parseHeaderFromFile, FileSystem.content_graft hfin]

namespace IqzipImpl

/-- `compress_init` touches its two files only. -/
theorem compressInit_graft (c : IqzipImpl σ) (hfin : fin ∈ P) (hfout : fout ∈ P) :
    c.compressInit api (graft P fs t) fin fout
      = (c.compressInit api fs fin fout).graft P t := by
  unfold compressInit
  dsimp only
  rw [IqzipCompressionHeader.writeHeaderToFile_graft _ hfout]
  cases (c.initCoder api).dCcsdsCipHdr.writeHeaderToFile fs fout with
  | error e => rfl
  | ok fs₁ =>
    simp only [Except.map, InputStream.openFile_graft _ hfin, OutputStream.openFile_graft _ hfout]
    split_ifs <;> rfl

/-- The functions that end a session close its files. -/
theorem fin_graft (c : IqzipImpl σ) : c.fin api (graft P fs t) = (c.fin api fs).graft P t := by
  unfold fin
  split
  · rfl
  · split_ifs <;> rfl

end IqzipImpl

namespace FileLoop

variable {l l' : FileLoop σ}

/-- The loop with files outside `P` replaced by those of `t`. -/
noncomputable def graft (P : Set String) (t : FileSystem) (l : FileLoop σ) : FileLoop σ :=
  { l with fs := Store.graft P l.fs t }

/-- The read of a turn is from the input file. -/
theorem refill_graft (h : l.impl.Within P) : (l.graft P t).refill = l.refill.graft P t := by
  have hread : (l.graft P t).impl.inputStream.read (l.graft P t).fs chunk
      = l.impl.inputStream.read l.fs chunk := InputStream.read_graft h.input chunk
  unfold refill
  rw [hread]
  by_cases hgo : l.impl.dStrm.availIn = 0 ∧ l.inputAvail = true
  · rw [if_pos hgo, if_pos (show (l.graft P t).impl.dStrm.availIn = 0
      ∧ (l.graft P t).inputAvail = true from hgo)]
    rfl
  · have hgo' : ¬ ((l.graft P t).impl.dStrm.availIn = 0 ∧ (l.graft P t).inputAvail = true) := hgo
    rw [if_neg hgo']
    rw [if_neg hgo]

/-- The write of a turn is to the output file. -/
theorem account_graft (h : l.impl.Within P) :
    (l.graft P t).account = l.account.map (graft P t) := by
  have hwrite := @OutputStream.write_graft P l.fs t _ h.output l.out
    (writeLength l.impl.dStrm.totalOut l.totalOut)
  unfold account
  rw [show (l.graft P t).impl = l.impl from rfl, show (l.graft P t).totalOut = l.totalOut from rfl,
    show (l.graft P t).out = l.out from rfl, show (l.graft P t).fs = Store.graft P l.fs t from rfl]
  dsimp only
  rw [hwrite]
  by_cases hmade : 0 < writeLength l.impl.dStrm.totalOut l.totalOut
  · rw [if_pos hmade, if_pos hmade]
    cases l.impl.outputStream.write l.fs l.out
        (writeLength l.impl.dStrm.totalOut l.totalOut) with
    | error e => rfl
    | ok r => simp only [Except.map, graft]
  · rw [if_neg hmade, if_neg hmade]
    rfl

/-- **A turn of the file loop** touches the files of its streams only. -/
theorem step_graft (h : l.impl.Within P) :
    (l.graft P t).step api
      = (l.step api).map (graft P t) (Except.map fun r => (r.1, r.2.graft P t)) := by
  have hread := l.refill_appends
  have hwithin : ∀ strm out, (l.refill.coded strm out).impl.Within P := fun _ _ =>
    ⟨fun _ hp => h.input (hread.input hp), fun _ hp => h.output (hread.output hp)⟩
  have hflags : ((l.graft P t).inputAvail || (l.graft P t).outputAvail)
      = (l.inputAvail || l.outputAvail) := rfl
  rw [step, step, hflags]
  by_cases hgo : (l.inputAvail || l.outputAvail) = true
  · rw [if_pos hgo, if_pos hgo, refill_graft h]
    simp only [show (l.refill.graft P t).impl = l.refill.impl from rfl,
      show (l.refill.graft P t).out = l.refill.out from rfl]
    cases hcode : api.code .noFlush l.refill.impl.dStrm l.refill.out with
    | error e => rfl
    | ok r =>
      obtain ⟨status, strm, out⟩ := r
      dsimp only
      by_cases herr : status ≠ aecOk
      · rw [if_pos herr, if_pos herr]
        rfl
      · have haccount : ((l.refill.coded strm out).graft P t).account
            = (l.refill.coded strm out).account.map (graft P t) := account_graft (hwithin strm out)
        rw [if_neg herr, if_neg herr,
          show (l.refill.graft P t).coded strm out = (l.refill.coded strm out).graft P t from rfl,
          haccount]
        cases (l.refill.coded strm out).account <;> rfl
  · rw [if_neg hgo, if_neg hgo]
    rfl

/-- So does the flush behind the loop. -/
theorem flush_graft (h : l.impl.Within P) :
    (l.graft P t).flush api = (l.flush api).graft P t := by
  have hcode : api.code .flush (l.graft P t).impl.dStrm (l.graft P t).out
      = api.code .flush l.impl.dStrm l.out := rfl
  unfold flush
  rw [hcode]
  cases api.code .flush l.impl.dStrm l.out with
  | error e => rfl
  | ok r =>
    obtain ⟨status, strm, out⟩ := r
    have hcoded : (l.graft P t).coded strm out = (l.coded strm out).graft P t := rfl
    have hwithin : (l.coded strm out).impl.Within P := ⟨h.input, h.output⟩
    dsimp only
    rw [hcoded]
    generalize l.coded strm out = l at hwithin ⊢
    have hwrite := @OutputStream.write_graft P l.fs t _ hwithin.output l.out
      (writeLength l.impl.dStrm.totalOut l.totalOut)
    rw [show (l.graft P t).impl = l.impl from rfl,
      show (l.graft P t).totalOut = l.totalOut from rfl, show (l.graft P t).out = l.out from rfl,
      show (l.graft P t).fs = Store.graft P l.fs t from rfl, hwrite]
    split_ifs
    · rfl
    · cases l.impl.outputStream.write l.fs l.out
        (writeLength l.impl.dStrm.totalOut l.totalOut) <;> rfl
    · rfl

end FileLoop

namespace IqzipImpl

variable {c : IqzipImpl σ} {c' : IqzipImpl σ} {fs' : FileSystem}

/-- A function that appends leaves the streams on their paths. -/
theorem Within.of_appends (h : c.Within P) (happends : c.Appends c' fs fs') : c'.Within P :=
  ⟨fun _ hp => h.input (happends.input hp), fun _ hp => h.output (happends.output hp)⟩

/-- The file loop, from its start on. -/
theorem iterate_graft (h : c.Within P) (fuel : Nat) (cell : Nat → U8) :
    iterate (FileLoop.step api) fuel
        (FileLoop.start c (graft P fs t) { size := chunk, cell := cell })
      = (iterate (FileLoop.step api) fuel (FileLoop.start c fs { size := chunk, cell := cell })).map
          (Except.map fun r => (r.1, r.2.graft P t)) := by
  have hstart : (FileLoop.start c fs { size := chunk, cell := cell }).impl.Within P :=
    ⟨h.input, h.output⟩
  refine iterate_map (FileLoop.graft P t) _ (fun l => l.impl.Within P) ?_ ?_ hstart fuel
  · intro l l' hwithin hstep
    exact hwithin.of_appends (FileLoop.step_appends hstep)
  · intro l hwithin
    exact FileLoop.step_graft hwithin

/-- **`compress()`** touches the files of its streams only. -/
theorem compress_graft (h : c.Within P) (fuel : Nat) (cell : Nat → U8) :
    c.compress api fuel cell (graft P fs t)
      = (c.compress api fuel cell fs).map (Outcome.graft P t) := by
  rw [compress, compress, iterate_graft h]
  cases hrun : iterate (FileLoop.step api) fuel
      (FileLoop.start c fs { size := chunk, cell := cell }) with
  | none => rfl
  | some result =>
    cases result with
    | error e => rfl
    | ok r =>
      obtain ⟨status, l⟩ := r
      have hwithin : l.impl.Within P := h.of_appends (FileLoop.iterate_appends hrun)
      simp only [Option.map_some, Except.map, FileLoop.flush_graft hwithin,
        apply_ite (Outcome.graft P t)]
      rfl

/-- So does `decompress()`. -/
theorem decompress_graft (h : c.Within P) (fuel : Nat) (cell : Nat → U8) :
    c.decompress api fuel cell (graft P fs t)
      = (c.decompress api fuel cell fs).map (Outcome.graft P t) := by
  rw [decompress, decompress, iterate_graft h]
  cases iterate (FileLoop.step api) fuel
      (FileLoop.start c fs { size := chunk, cell := cell }) with
  | none => rfl
  | some result => cases result <;> rfl

end IqzipImpl

end Impl

/-! ## The streaming functions -/

namespace CodecImpl

variable {api : Aec σ} {P : Set String} {fs t : FileSystem} {fin fout : String} {c : CodecImpl σ}
  {inbuf : List U8}

/-- `stream_compress_init` touches its output file only. -/
theorem streamCompressInit_graft (c : CodecImpl σ) (hfout : fout ∈ P) :
    c.streamCompressInit api (graft P fs t) fout
      = (c.streamCompressInit api fs fout).graft P t := by
  unfold streamCompressInit
  dsimp only
  rw [IqzipCompressionHeader.writeHeaderToFile_graft _ hfout]
  cases (c.toIqzipImpl.initCoder api).dCcsdsCipHdr.writeHeaderToFile fs fout with
  | error e => rfl
  | ok fs₁ =>
    simp only [Except.map, OutputStream.openFile_graft _ hfout]
    split_ifs <;> rfl

/-- The write behind a call. -/
theorem writeProduced_graft (h : c.Within P) :
    c.writeProduced (graft P fs t)
      = (c.writeProduced fs).map fun r => (r.1, graft P r.2 t) := by
  unfold writeProduced
  dsimp only
  rw [OutputStream.write_graft h.output]
  split_ifs
  · cases c.outputStream.write fs c.dOut (sizeSub c.dStrm.totalOut c.dTotalOut) <;> rfl
  · rfl

/-- A block writes to the output file only. -/
theorem streamBlock_graft (h : c.Within P) :
    c.streamBlock api (graft P fs t) inbuf = (c.streamBlock api fs inbuf).graft P t := by
  unfold streamBlock
  cases c.dTmpStream.memcpy c.dStreamAvailIn inbuf (sizeSub streamChunk c.dStreamAvailIn) with
  | error e => rfl
  | ok tmp =>
    dsimp only
    cases hcode : codeStream api .noFlush
        { c with dTmpStream := tmp, dStreamAvailIn := streamChunk } with
    | error e => rfl
    | ok r =>
      obtain ⟨status, c₁⟩ := r
      obtain ⟨hin, hout⟩ := codeStream_streams hcode
      have hwithin : c₁.Within P := ⟨hin ▸ h.input, hout ▸ h.output⟩
      dsimp only
      by_cases herr : status ≠ aecOk
      · rw [if_pos herr, if_pos herr]
        rfl
      · rw [if_neg herr, if_neg herr, writeProduced_graft hwithin]
        cases c₁.writeProduced fs <;> rfl

/-- What is left of a buffer is copied, with no file. -/
theorem streamRest_graft (c : CodecImpl σ) (nbytes : Nat) :
    c.streamRest (graft P fs t) inbuf nbytes = (c.streamRest fs inbuf nbytes).graft P t := by
  unfold streamRest
  split_ifs
  · cases c.dTmpStream.memcpy c.dStreamAvailIn inbuf nbytes <;> rfl
  · rfl

/-- The blocks of a buffer, one after the other. -/
theorem streamLoop_graft (h : c.Within P) (nbytes : Nat) (remainder : Int) :
    c.streamLoop api (graft P fs t) inbuf nbytes remainder
      = (c.streamLoop api fs inbuf nbytes remainder).graft P t := by
  -- on the loop's own recursion: abort, failed call, next turn, leftover bytes
  induction c, fs, inbuf, nbytes, remainder using streamLoop.induct api with
  | case1 c fs inbuf nbytes remainder hgo e hblock =>
    rw [streamLoop, streamLoop, if_pos hgo, if_pos hgo, streamBlock_graft h, hblock]
    rfl
  | case2 c fs inbuf nbytes remainder hgo status c₁ fs₁ hblock herr =>
    rw [streamLoop, streamLoop, if_pos hgo, if_pos hgo, streamBlock_graft h, hblock]
    simp only [Outcome.graft_ok, if_pos herr]
  | case3 c fs inbuf nbytes remainder hgo status c₁ fs₁ hblock hok inbuf₁ nbytes₁ c₂ ih =>
    have hblocked : c₁.Within P := h.of_appends (streamBlock_appends hblock)
    have hwithin : c₂.Within P := ⟨hblocked.input, hblocked.output⟩
    rw [streamLoop, streamLoop, if_pos hgo, if_pos hgo, streamBlock_graft h, hblock]
    simp only [Outcome.graft_ok, if_neg hok]
    exact ih hwithin
  | case4 c fs inbuf nbytes remainder hstop =>
    rw [streamLoop, streamLoop, if_neg hstop, if_neg hstop]
    exact streamRest_graft c nbytes

/-- **A streaming call** touches the output file only. -/
theorem streamCode_graft (h : c.Within P) (inbuf : InBuf) :
    c.streamCode api (graft P fs t) inbuf = (c.streamCode api fs inbuf).graft P t := by
  unfold streamCode
  dsimp only
  split_ifs
  · cases c.dTmpStream.memcpy c.dStreamAvailIn inbuf.bytes inbuf.bytes.length <;> rfl
  · exact streamLoop_graft h _ _

/-- So does the end of a streaming session. -/
theorem streamFin_graft (h : c.Within P) (mode : FlushMode) :
    c.streamFin api mode (graft P fs t) = (c.streamFin api mode fs).graft P t := by
  unfold streamFin
  cases hcode : c.codeStream api mode with
  | error e => rfl
  | ok r =>
    obtain ⟨status, c₁⟩ := r
    obtain ⟨hin, hout⟩ := codeStream_streams hcode
    have hwithin : c₁.Within P := ⟨hin ▸ h.input, hout ▸ h.output⟩
    dsimp only
    by_cases herr : status ≠ aecOk
    · rw [if_pos herr, if_pos herr]
      rfl
    · rw [if_neg herr, if_neg herr, writeProduced_graft hwithin]
      cases c₁.writeProduced fs with
      | error e => rfl
      | ok r =>
        obtain ⟨c₂, fs₁⟩ := r
        simp only [Except.map, IqzipImpl.fin_graft]
        cases c₂.toIqzipImpl.fin api fs₁ <;> rfl

end CodecImpl

/-- `decompress_init` touches its two files only. -/
theorem DecompressorImpl.decompressInit_graft {api : Aec σ} {P : Set String} {fs t : FileSystem}
    {fin fout : String} (d : DecompressorImpl σ) (hfin : fin ∈ P) (hfout : fout ∈ P) :
    d.decompressInit api (graft P fs t) fin fout
      = (d.decompressInit api fs fin fout).graft P t := by
  have hread : d.readHeader (graft P fs t) fin = d.readHeader fs fin := by
    rw [readHeader, readHeader, IqzipCompressionHeader.parseHeaderFromFile_graft _ hfin]
  unfold decompressInit
  rw [hread]
  cases d.readHeader fs fin with
  | error e => rfl
  | ok d₁ =>
    simp only [InputStream.openFile_graft _ hfin, OutputStream.openFile_graft _ hfout]
    split_ifs <;> rfl

/-! ## Calls -/

/-- The object is attached to files of `R` only, for writing to files of `W`. -/
structure Codec.Within (o : Codec σ τ) (R W : Set String) : Prop where
  input : o.inputStream.Within R
  output : o.outputStream.Within W

/-- The call names input files of `R` and output files of `W` only. -/
structure Call.Within (k : Call) (R W : Set String) : Prop where
  fin : ∀ ⦃p⦄, k.fin = some p → p ∈ R
  fout : ∀ ⦃p⦄, k.fout = some p → p ∈ W

section Calls

variable {enc : Aec σ} {dec : Aec τ} {fuel : Nat} {k : Call} {o o' : Codec σ τ} {P R W : Set String}
  {fs fs' t : FileSystem} {status : Int}

/-- Putting a part back into its object does not touch files. -/
theorem Outcome.lift_graft {β γ : Type} (f : β → γ) (r : Outcome β) :
    (r.graft P t).lift f = (r.lift f).graft P t := by
  cases r <;> rfl

/-- **A call on files of which the part it works on is the same** does the same. -/
theorem Codec.call_graft (ho : o.Within P P) (hk : k.Within P P) :
    o.call enc dec fuel (graft P fs t) k
      = (o.call enc dec fuel fs k).map (Outcome.graft P t) := by
  cases o with
  | compressor c =>
    have hc : c.Within P := ⟨ho.input, ho.output⟩
    cases k with
    | compressInit fin fout =>
      simp only [call, c.compressInit_graft (hk.fin rfl) (hk.fout rfl), Outcome.lift_graft,
        Option.map_some]
    | compress cell =>
      simp only [call, IqzipImpl.compress_graft hc, Option.map_map]
      congr 1
      funext r
      exact Outcome.lift_graft ..
    | compressFin =>
      simp only [call, IqzipImpl.compressFin, IqzipImpl.fin_graft, Outcome.lift_graft,
        Option.map_some]
    | streamCompressInit fout =>
      simp only [call, c.streamCompressInit_graft (hk.fout rfl), Outcome.lift_graft,
        Option.map_some]
    | streamCompress inbuf =>
      simp only [call, CodecImpl.streamCompress, CodecImpl.streamCode_graft hc, Outcome.lift_graft,
        Option.map_some]
    | streamCompressFin =>
      simp only [call, CodecImpl.streamCompressFin, CodecImpl.streamFin_graft hc,
        Outcome.lift_graft, Option.map_some]
    | _ => rfl
  | decompressor d =>
    have hd : d.Within P := ⟨ho.input, ho.output⟩
    cases k with
    | decompressInit fin fout =>
      simp only [call, d.decompressInit_graft (hk.fin rfl) (hk.fout rfl), Outcome.lift_graft,
        Option.map_some]
    | decompress cell =>
      simp only [call, IqzipImpl.decompress_graft hd, Option.map_map]
      congr 1
      funext r
      exact Outcome.lift_graft ..
    | decompressFin =>
      simp only [call, IqzipImpl.decompressFin, IqzipImpl.fin_graft, Outcome.lift_graft,
        Option.map_some]
    | streamDecompress inbuf =>
      simp only [call, CodecImpl.streamDecompress, CodecImpl.streamCode_graft hd,
        Outcome.lift_graft, Option.map_some]
    | streamDecompressFin =>
      simp only [call, CodecImpl.streamDecompressFin, CodecImpl.streamFin_graft hd,
        Outcome.lift_graft, Option.map_some]
    | _ => rfl

/-- An object stays attached to the files it may use. -/
theorem Codec.Within.of_effect (ho : o.Within R W) (hk : k.Within R W)
    (h : Effect k o o' fs fs') : o'.Within R W where
  input := fun _ hp => (h.input hp).elim (fun hin => ho.input hin) fun hin => hk.fin hin
  output := fun _ hp => (h.output hp).elim (fun hout => ho.output hout) fun hout => hk.fout hout

/-- **A call is local** to the files its object is attached to and those it names. -/
theorem Client.call_isLocal {x : Client σ τ} (hsubset : W ⊆ R) (hx : x.object.Within R W)
    (hk : k.Within R W) : Local (x.call enc dec fuel k) R W where
  reads := by
    intro s t
    have hcall : x.object.call enc dec fuel (graft R s t) k
        = (x.object.call enc dec fuel s k).map (Outcome.graft R t) :=
      Codec.call_graft ⟨hx.input, fun _ hp => hsubset (hx.output hp)⟩
        ⟨hk.fin, fun _ hp => hsubset (hk.fout hp)⟩
    unfold call
    rw [hcall]
    cases x.object.call enc dec fuel s k with
    | none => rfl
    | some r => cases r <;> rfl
  writes := by
    intro s r hcall p hp
    have heffect := Client.call_effect hcall
    have hcontent : r.2.content p = s.content p :=
      heffect.others (fun hpath => hp (hx.output hpath)) fun hpath => hp (hk.fout hpath)
    rw [FileSystem.cell_eq, FileSystem.cell_eq, hcontent, heffect.writable]

end Calls

/-! ## Many objects -/

/-- The files that each of many objects may read, and those among them that it may write. What one
object writes, no other reads or writes; a file that none writes may be read by all. -/
structure Territories (ι : Type) where
  reads : ι → Set String
  writes : ι → Set String
  subset : ∀ i, writes i ⊆ reads i
  disjoint : ∀ ⦃i j⦄, i ≠ j → Disjoint (writes i) (reads j)

/-- Objects in their own territories keep apart. -/
theorem Territories.separated {ι : Type} (T : Territories ι) (enc : ι → Aec σ) (dec : ι → Aec τ)
    (fuel : Nat) :
    Separated (fun i k (x : Client σ τ) fs => x.call (enc i) (dec i) fuel k fs)
      (fun i x => x.object.Within (T.reads i) (T.writes i))
      (fun i k => k.Within (T.reads i) (T.writes i)) T.reads T.writes where
  isLocal := fun i _ _ hx hk => Client.call_isLocal (T.subset i) hx hk
  keeps := fun _ _ _ _ _ hx hk hcall => hx.of_effect hk (Client.call_effect hcall)
  subset := T.subset
  disjoint := T.disjoint

/-- **Objects with files of their own do not see each other.** Any number of compressors and
decompressors, each with its own files: a program that interleaves their calls in any order ends
with some objects, statuses and files exactly when each object, given its own calls alone on the
files as they were at the start, ends with that object, those statuses and those files; and no other
file has changed. -/
theorem interleaving_iff {ι : Type} [DecidableEq ι] (T : Territories ι) {enc : ι → Aec σ}
    {dec : ι → Aec τ} {fuel : Nat} {w : List (ι × Call)} {g g' : ι → Client σ τ}
    {fs fs' : FileSystem} (hg : ∀ i, (g i).object.Within (T.reads i) (T.writes i))
    (hw : ∀ e ∈ w, e.2.Within (T.reads e.1) (T.writes e.1)) :
    run (fun i k (x : Client σ τ) fs => x.call (enc i) (dec i) fuel k fs) w g fs = some (g', fs')
      ↔ (∀ i, ∃ fsᵢ, solo (Client.call (enc i) (dec i) fuel) (callsOf i w) (g i) fs
            = some (g' i, fsᵢ)
          ∧ ∀ p ∈ T.reads i, fsᵢ.content p = fs'.content p ∧ fsᵢ.writable p = fs'.writable p)
        ∧ ∀ p, (∀ i, p ∉ T.writes i) →
          fs'.content p = fs.content p ∧ fs'.writable p = fs.writable p := by
  rw [(T.separated enc dec fuel).run_iff hg hw]
  simp only [Agree, FileSystem.cell_eq_iff]

/-- Two compressors of which each writes a file of its own. -/
def twoFiles : Territories Bool where
  reads i := {if i then "b.iqz" else "a.iqz"}
  writes i := {if i then "b.iqz" else "a.iqz"}
  subset _ := subset_rfl
  disjoint := by
    intro i j hne
    rw [Set.disjoint_singleton]
    revert i j
    decide

open CodecImpl in
/-- Two streaming sessions of one byte each, interleaved or one after the other. -/
theorem interleaving_iff_twoFiles :
    let act := fun (_ : Bool) k (x : Client (Given U8) (Given U8)) fs =>
      x.call copying copying 0 k fs
    let new := fun _ => { object := .compressor byteCompressor, statuses := [] }
    run act [(false, .streamCompressInit "a.iqz"), (true, .streamCompressInit "b.iqz"),
        (true, .streamCompress (oneByte 2)), (false, .streamCompress (oneByte 1)),
        (false, .streamCompressFin), (true, .streamCompressFin)] new .empty
      = run act [(false, .streamCompressInit "a.iqz"), (false, .streamCompress (oneByte 1)),
        (false, .streamCompressFin), (true, .streamCompressInit "b.iqz"),
        (true, .streamCompress (oneByte 2)), (true, .streamCompressFin)] new .empty := by
  intro act new
  have hnew : ∀ i, (new i).object.Within (twoFiles.reads i) (twoFiles.writes i) :=
    fun _ => ⟨nofun, nofun⟩
  have hinit : ∀ i : Bool, (Call.streamCompressInit (if i then "b.iqz" else "a.iqz")).Within
      (twoFiles.reads i) (twoFiles.writes i) :=
    fun i => ⟨nofun, fun p hp => (Option.some.inj hp).symm⟩
  have hcode : ∀ (i : Bool) b, (Call.streamCompress (oneByte b)).Within (twoFiles.reads i)
      (twoFiles.writes i) := fun _ _ => ⟨nofun, nofun⟩
  have hfin : ∀ i : Bool, Call.streamCompressFin.Within (twoFiles.reads i) (twoFiles.writes i) :=
    fun _ => ⟨nofun, nofun⟩
  apply Option.ext
  rintro ⟨g', fs'⟩
  -- both orders come apart into the same two sessions
  rw [interleaving_iff twoFiles hnew (by
      simp only [List.forall_mem_cons]
      exact ⟨hinit false, hinit true, hcode true 2, hcode false 1, hfin false, hfin true,
        List.forall_mem_nil _⟩),
    interleaving_iff twoFiles hnew (by
      simp only [List.forall_mem_cons]
      exact ⟨hinit false, hcode false 1, hfin false, hinit true, hcode true 2, hfin true,
        List.forall_mem_nil _⟩)]
  refine and_congr_left' (forall_congr' fun i => ?_)
  cases i <;> rfl

end IQzip
