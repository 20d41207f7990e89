import IQzip.Delivery

/-! # File sessions whose coder fails

`compress()` and `decompress()` leave their loop at the first call of the coder that fails, with the
output of that call unwritten and the files open, and the end function is called all the same.
Nothing is assumed of the coder here.

* `compress_ends`: how a session of the file functions can end on a new compressor, with the
  statuses it returns and the file it leaves.
* `decompress_ends`: the same for a new decompressor, whose loop makes no flushing call. -/

namespace IQzip

open Library

variable {σ τ : Type}

/-! ## The loop -/

namespace FileLoop

variable {api : Aec σ} {fs₀ : FileSystem} {fin fout : String} {base : List U8} {l l' : FileLoop σ}
  {p : Pump σ U8 U8}

/-- A failing call leaves the output file as it is. -/
theorem Represents.failed_files (hne : fin ≠ fout) (h : Represents fs₀ fin fout base l p)
    (hgo : (p.inputAvail || p.outputAvail) = true) (herr : (p.answer api.coder chunk).status ≠ 0) :
    ∃ l', l.step api = .inr (.ok ((p.answer api.coder chunk).status, l'))
      ∧ l'.fs = fs₀.put fout (base ++ p.written)
      ∧ l'.impl.dStrm.state = some (p.answer api.coder chunk).next := by
  have hread := h.refill hne
  rw [FileLoop.step, h.inputAvail, h.outputAvail, if_pos hgo]
  simp only [hread.code .noFlush, Pump.state_refill]
  rw [← Pump.answer, if_pos (show (p.answer api.coder chunk).status ≠ aecOk from herr)]
  refine ⟨_, rfl, ?_, rfl⟩
  rw [coded, hread.files, Pump.written_refill]

/-- **A run of the loop that returns**, and what it leaves: it ended at a call that failed, or with
both flags down. -/
theorem Represents.exits_inv (hne : fin ≠ fout) {s₀ : σ} {input : List U8}
    (h : Represents fs₀ fin fout base l (Pump.start s₀ input)) {status : Int}
    (hexit : Exits (FileLoop.step api) l (.ok (status, l'))) :
    ∃ q, Loops (Pump.step api.coder chunk) (Pump.start s₀ input) q
      ∧ ((status ≠ 0 ∧ status = (q.answer api.coder chunk).status
          ∧ l'.fs = fs₀.put fout (base ++ q.written)
          ∧ l'.impl.dStrm.state = some (q.answer api.coder chunk).next)
        ∨ (status = 0 ∧ (q.inputAvail = false ∧ q.outputAvail = false)
          ∧ q.written.length < 2 ^ 31 ∧ Represents fs₀ fin fout base l' q)) := by
  obtain ⟨last, hloops, hlast⟩ := hexit
  obtain ⟨q, hq, hrep, hsmall⟩ := h.loops_inv hne hloops
  refine ⟨q, hq, ?_⟩
  by_cases hgo : (q.inputAvail || q.outputAvail) = true
  · rcases hrep.leaves_inv hne hlast with ⟨herr, -⟩ | ⟨-, hleave, -, -⟩
    · obtain ⟨l'', hfail, hfiles, hstate⟩ := hrep.failed_files hne hgo herr
      rw [hlast] at hfail
      cases hfail
      exact Or.inl ⟨herr, rfl, hfiles, hstate⟩
    · obtain ⟨hin, hout⟩ := Pump.flags_of_step_zero hleave
      rw [hin, hout] at hgo
      cases hgo
  · rw [hrep.leaves hgo] at hlast
    cases hlast
    rw [Bool.or_eq_true, not_or, Bool.not_eq_true, Bool.not_eq_true] at hgo
    exact Or.inr ⟨rfl, hgo, hsmall hgo.2, hrep⟩

/-- A flushing call that fails leaves the output file as it is, and the function returns -1. -/
theorem Represents.flush_failed (h : Represents fs₀ fin fout base l p)
    (herr : (api.coder.call p.state .flush p.pending chunk).status ≠ 0) :
    ∃ c, l.flush api = .ok (-1, c, fs₀.put fout (base ++ p.written))
      ∧ c.dStrm.state = some (api.coder.call p.state .flush p.pending chunk).next := by
  unfold FileLoop.flush
  simp only [h.code .flush]
  rw [if_pos (show _ ≠ aecOk from herr), coded, h.files]
  exact ⟨_, rfl, rfl⟩

end FileLoop

/-! ## The ends of the functions -/

/-- How `compress()` can end over `input`: the status it returns, the state of the coder and what
was written. `used` is what the coder took in the calls of the loop, `pending` what it was offered
last, and `unread` what was not read. -/
inductive CompressEnds (api : Aec σ) (s₀ : σ) (input : List U8) : Int → σ → List U8 → Prop
  /-- A call in the loop fails. What it produced is lost. -/
  | failed {s used pending unread made}
      (reaches : api.coder.Reaches chunk s₀ input s used made)
      (split : used ++ (pending ++ unread) = input)
      (herr : (api.coder.call s .noFlush pending chunk).status ≠ 0) :
      CompressEnds api s₀ input (api.coder.call s .noFlush pending chunk).status
        (api.coder.call s .noFlush pending chunk).next made
  /-- All of the input was read, and the flushing call fails. -/
  | unflushed {s used pending made}
      (reaches : api.coder.Reaches chunk s₀ input s used made) (split : used ++ pending = input)
      (herr : (api.coder.call s .flush pending chunk).status ≠ 0) :
      CompressEnds api s₀ input (-1) (api.coder.call s .flush pending chunk).next made
  /-- All of the input was read, and the flushing call succeeds. -/
  | flushed {s used pending made}
      (reaches : api.coder.Reaches chunk s₀ input s used made) (split : used ++ pending = input)
      (hok : (api.coder.call s .flush pending chunk).status = 0) :
      CompressEnds api s₀ input 0 (api.coder.call s .flush pending chunk).next
        (made ++ (api.coder.call s .flush pending chunk).produced)

/-- How `decompress()` can end over `input`. -/
inductive DecompressEnds (api : Aec σ) (s₀ : σ) (input : List U8) : Int → σ → List U8 → Prop
  | failed {s used pending unread made}
      (reaches : api.coder.Reaches chunk s₀ input s used made)
      (split : used ++ (pending ++ unread) = input)
      (herr : (api.coder.call s .noFlush pending chunk).status ≠ 0) :
      DecompressEnds api s₀ input (api.coder.call s .noFlush pending chunk).status
        (api.coder.call s .noFlush pending chunk).next made
  /-- A call that was offered all the rest of the input produces nothing. It need not have taken
  what it was offered. -/
  | ended {s used pending made}
      (reaches : api.coder.Reaches chunk s₀ input s used made) (split : used ++ pending = input)
      (hok : (api.coder.call s .noFlush pending chunk).status = 0)
      (quiet : (api.coder.call s .noFlush pending chunk).produced = []) :
      DecompressEnds api s₀ input 0 (api.coder.call s .noFlush pending chunk).next made

section Ends

variable {api : Aec σ} {c c' : IqzipImpl σ} {fs fs' : FileSystem} {fin fout : String} {pos : Nat}
  {base input : List U8} {s₀ : σ} {fuel : Nat} {cell : Nat → U8} {status : Int}

/-- The turn that took the flags down was offered all the rest, and was quiet. -/
theorem DecompressEnds.of_flags {q : Pump σ U8 U8}
    (hq : Loops (Pump.step api.coder chunk) (Pump.start s₀ input) q)
    (hflags : q.inputAvail = false ∧ q.outputAvail = false) :
    DecompressEnds api s₀ input 0 q.state q.written := by
  cases hq with
  | refl => cases hflags.1
  | @tail p _ hp hstep =>
    obtain ⟨used, hsound⟩ := Pump.sound_of_loops hp
    obtain ⟨hok, rfl⟩ := Pump.eq_of_step_inl hstep
    have hread := hsound.refill
    have hquiet : (p.answer api.coder chunk).produced = [] := by
      simpa [Pump.advance] using hflags.2
    have hsplit := hread.split
    rw [hread.ended hflags.1, List.append_nil] at hsplit
    have hends := DecompressEnds.ended hsound.reaches hsplit hok hquiet
    rw [Pump.advance, hquiet, List.append_nil]
    exact hends

/-- **The ways in which `compress()` returns.** -/
theorem FileLoop.Opened.compress_inv (hopen : FileLoop.Opened c fs fin fout pos base s₀)
    (hne : fin ≠ fout) (h : c.compress api fuel cell fs = some (.ok (status, c', fs'))) :
    ∃ s written, CompressEnds api s₀ ((fs.bytesAt fin).drop pos) status s written
      ∧ c'.dStrm.state = some s ∧ fs' = fs.put fout (base ++ written) := by
  obtain ⟨turns, hturns, hend⟩ := Option.map_eq_some_iff.mp h
  match turns with
  | .error e => cases hend
  | .ok (st, l) =>
    dsimp only at hend
    obtain ⟨q, hq, hends⟩ := (hopen.represents cell).exits_inv hne (exits_of_iterate hturns)
    obtain ⟨used, hsound⟩ := Pump.sound_of_loops hq
    rcases hends with ⟨herr, rfl, hfiles, hstate⟩ | ⟨rfl, hflags, hlt, hrep⟩
    · rw [if_pos (show _ ≠ aecOk from herr)] at hend
      cases hend
      exact ⟨_, q.written, .failed hsound.reaches hsound.refill.split herr, hstate, hfiles⟩
    · have hsplit := hsound.split
      rw [hsound.ended hflags.1, List.append_nil] at hsplit
      rw [if_neg (show ¬ (0 : Int) ≠ aecOk from not_not_intro rfl)] at hend
      by_cases hok : (api.coder.call q.state .flush q.pending chunk).status = 0
      · obtain ⟨c₂, hflush, hstate⟩ := hrep.flush hok hlt
        rw [hflush] at hend
        cases hend
        exact ⟨_, _, .flushed hsound.reaches hsplit hok, hstate, rfl⟩
      · obtain ⟨c₂, hflush, hstate⟩ := hrep.flush_failed hok
        rw [hflush] at hend
        cases hend
        exact ⟨_, _, .unflushed hsound.reaches hsplit hok, hstate, rfl⟩

/-- **The ways in which `decompress()` returns.** -/
theorem FileLoop.Opened.decompress_inv (hopen : FileLoop.Opened c fs fin fout pos base s₀)
    (hne : fin ≠ fout) (h : c.decompress api fuel cell fs = some (.ok (status, c', fs'))) :
    ∃ s written, DecompressEnds api s₀ ((fs.bytesAt fin).drop pos) status s written
      ∧ c'.dStrm.state = some s ∧ fs' = fs.put fout (base ++ written) := by
  obtain ⟨turns, hturns, hend⟩ := Option.map_eq_some_iff.mp h
  match turns with
  | .error e => cases hend
  | .ok (st, l) =>
    cases hend
    obtain ⟨q, hq, hends⟩ := (hopen.represents cell).exits_inv hne (exits_of_iterate hturns)
    rcases hends with ⟨herr, rfl, hfiles, hstate⟩ | ⟨rfl, hflags, -, hrep⟩
    · obtain ⟨used, hsound⟩ := Pump.sound_of_loops hq
      exact ⟨_, q.written, .failed hsound.reaches hsound.refill.split herr, hstate, hfiles⟩
    · exact ⟨_, q.written, .of_flags hq hflags, hrep.state, hrep.files⟩

end Ends

/-! ## Sessions on a new object -/

section New

variable {enc : Aec σ} {dec : Aec τ} {fuel : Nat} {fs fs' : FileSystem} {fin fout : String}
  {cell : Nat → U8} {x : Client σ τ}

/-- **How a session of the file functions ends**, for any coder and any input. The session returns
three statuses. The output file is the header and what the coder made in the calls that succeeded;
`compress()` returns 0 only if all of the input was read and the flushing call succeeded, the status
of the failing call if the loop failed, and -1 if the flush did. What the file holds is its logical
content: after a failing call the stream is still open, with bytes in its buffer. -/
theorem compress_ends {storage : ObjectStorage σ} {cfg : Config} {input : List U8} {s₀ : σ}
    (hfile : fs.content fin = some input) (hne : fin ≠ fout) (hw : fs.writable fout = true)
    (hinit : (enc.init (aecParamsOf cfg)).2 = some s₀)
    (h : solo (Client.call enc dec fuel) [.compressInit fin fout, .compress cell, .compressFin]
      (newCompressor storage cfg) fs = some (x, fs')) :
    ∃ status s written, CompressEnds enc s₀ input status s written
      ∧ x.statuses = [(enc.init (aecParamsOf cfg)).1, status, enc.fin s]
      ∧ fs' = fs.put fout
        ((IqzipCompressionHeader.construct storage.header cfg).headerBytes ++ written) := by
  -- the init leaves both files open, and the header written
  have hinits := @IqzipImpl.compressInit_eq _ enc
    (CompressorImpl.construct storage cfg).toIqzipImpl _ _ _ _ rfl rfl hfile hne hw
  rw [show (enc.init (aecParamsOf (CompressorImpl.construct storage cfg).config)).2 = some s₀
    from hinit] at hinits
  obtain ⟨hopen, hsource⟩ := IqzipImpl.opened_of_init
    (CompressorImpl.construct storage cfg).toIqzipImpl
    (IqzipCompressionHeader.construct storage.header cfg).headerBytes s₀ hne hfile
  obtain ⟨_, _, fs₁, hfirst, hrest⟩ := Client.solo_cons_inv h
  simp only [newCompressor, Codec.call, hinits] at hfirst
  cases hfirst
  obtain ⟨status, _, fs₂, hsecond, hrest⟩ := Client.solo_cons_inv hrest
  obtain ⟨_, hcompress, hlift⟩ := Option.map_eq_some_iff.mp hsecond
  obtain ⟨c₂, rfl, rfl⟩ := Codec.eq_of_lift hlift
  obtain ⟨s, written, hends, hstate, rfl⟩ := hopen.compress_inv hne hcompress
  rw [hsource] at hends
  obtain ⟨_, _, fs₃, hthird, hend⟩ := Client.solo_cons_inv hrest
  obtain ⟨c₃, hfin, rfl⟩ := Codec.eq_of_lift (Option.some.inj hthird)
  obtain ⟨c₄, hlast⟩ := IqzipImpl.fin_status enc ((fs.put fout _).put fout _) hstate
  cases hfin.symm.trans hlast
  obtain ⟨rfl, rfl⟩ := Prod.mk.inj (Option.some.inj hend)
  exact ⟨status, s, written, hends, rfl, FileSystem.put_put ..⟩

/-- One byte, through a coder whose first call fails: `compress()` returns the status of the
call. -/
theorem compress_ends_failing :
    let api := Aec.failingOnce fun _ => 0
    ∃ (x : Client Bool Bool) (fs' : FileSystem) (s : Bool) (written : List U8),
      solo (Client.call api api 4)
          [.compressInit "in.iqz" "out.iqz", .compress fun _ => 0, .compressFin]
          (newCompressor (zeroStorage _) byteConfig) (fileOf [7]) = some (x, fs')
        ∧ CompressEnds api false [7] (-1) s written ∧ x.statuses = [aecOk, -1, api.fin s]
        ∧ fs' = (fileOf [7]).put "out.iqz" ((zeroedHeader byteConfig).headerBytes ++ written) := by
  intro api
  obtain ⟨x, fs', hrun, hfailed⟩ : ∃ (x : Client Bool Bool) (fs' : FileSystem),
      solo (Client.call api api 4)
          [.compressInit "in.iqz" "out.iqz", .compress fun _ => 0, .compressFin]
          (newCompressor (zeroStorage _) byteConfig) (fileOf [7]) = some (x, fs')
        ∧ x.statuses = [aecOk, -1, aecOk] := ⟨_, _, rfl, rfl⟩
  have hfile : (fileOf [7]).content "in.iqz" = some [7] := rfl
  have hinit : (api.init (aecParamsOf byteConfig)).2 = some false := rfl
  obtain ⟨status, s, written, hends, hstatuses, hfiles⟩ :=
    compress_ends hfile (by decide) rfl hinit hrun
  have hstatus : status = -1 := by
    rw [hfailed] at hstatuses
    exact (List.cons.inj (List.cons.inj hstatuses).2).1.symm
  subst hstatus
  exact ⟨x, fs', s, written, hrun, hends, hstatuses, hfiles⟩

/-- **How a session of the file functions ends on a new decompressor**, for any coder and any input
file that the header can be read from. The output file is what the coder made in the calls that
succeeded, whatever it was before, and there is no flushing call. As above this is the logical
content, of a stream that a failing call leaves open. -/
theorem decompress_ends {storage : ObjectStorage τ} {bytes : List U8} {size : Nat}
    {hdr : IqzipCompressionHeader} {t₀ : τ} (hfile : fs.content fin = some bytes)
    (hlen : IqzipCompressionHeader.maxHeaderSize ≤ bytes.length) (hne : fin ≠ fout)
    (hw : fs.writable fout = true)
    (hparse : (DecompressorImpl.construct storage).dCcsdsCipHdr.parseBuffer
      (bytes.take IqzipCompressionHeader.maxHeaderSize) = (size, hdr))
    (hinit : (dec.init (aecParamsOf hdr.decodedConfig)).2 = some t₀)
    (h : solo (Client.call enc dec fuel) [.decompressInit fin fout, .decompress cell,
      .decompressFin] (newDecompressor storage) fs = some (x, fs')) :
    ∃ status t written, DecompressEnds dec t₀ (bytes.drop size) status t written
      ∧ x.statuses = [(dec.init (aecParamsOf hdr.decodedConfig)).1, status, dec.fin t]
      ∧ fs' = fs.put fout written := by
  have hinits := @DecompressorImpl.decompressInit_eq _ dec (DecompressorImpl.construct storage)
    _ _ _ _ rfl rfl hfile hlen hw _ _ hparse
  rw [hinit] at hinits
  obtain ⟨hopen, hsource⟩ := DecompressorImpl.opened_represents (DecompressorImpl.construct storage)
    size hdr t₀ hfile hne
  obtain ⟨_, _, fs₁, hfirst, hrest⟩ := Client.solo_cons_inv h
  simp only [newDecompressor, Codec.call, hinits] at hfirst
  cases hfirst
  obtain ⟨status, _, fs₂, hsecond, hrest⟩ := Client.solo_cons_inv hrest
  obtain ⟨_, hdecompress, hlift⟩ := Option.map_eq_some_iff.mp hsecond
  obtain ⟨c₂, rfl, rfl⟩ := Codec.eq_of_lift hlift
  obtain ⟨t, written, hends, hstate, rfl⟩ := hopen.decompress_inv hne hdecompress
  rw [hsource] at hends
  obtain ⟨_, _, fs₃, hthird, hend⟩ := Client.solo_cons_inv hrest
  obtain ⟨c₃, hfin, rfl⟩ := Codec.eq_of_lift (Option.some.inj hthird)
  obtain ⟨c₄, hlast⟩ := IqzipImpl.fin_status dec ((fs.put fout _).put fout _) hstate
  cases hfin.symm.trans hlast
  obtain ⟨rfl, rfl⟩ := Prod.mk.inj (Option.some.inj hend)
  exact ⟨status, t, written, hends, rfl, FileSystem.put_put ..⟩

open CodecImpl in
/-- A header and two bytes behind it, through a coder that copies. -/
theorem decompress_ends_twoBytes :
    let bytes := (zeroedHeader (commandLineConfig 1 1 1 0 8 1 64)).headerBytes ++ [3, 5]
    ∃ (x : Client (Given U8) (Given U8)) (fs' : FileSystem) (status : Int) (t : Given U8)
      (written : List U8),
      solo (Client.call copying copying 4)
          [.decompressInit "in.iqz" "out", .decompress fun _ => 0, .decompressFin]
          (newDecompressor (zeroStorage _)) (fileOf bytes) = some (x, fs')
        ∧ DecompressEnds copying Given.start [3, 5] status t written
        ∧ fs' = (fileOf bytes).put "out" written := by
  intro bytes
  obtain ⟨x, fs', hrun⟩ : ∃ (x : Client (Given U8) (Given U8)) (fs' : FileSystem),
      solo (Client.call copying copying 4)
          [.decompressInit "in.iqz" "out", .decompress fun _ => 0, .decompressFin]
          (newDecompressor (zeroStorage _)) (fileOf bytes) = some (x, fs') := by
    obtain ⟨⟨x, fs'⟩, hr⟩ := Option.isSome_iff_exists.mp (show (solo (Client.call copying copying 4)
      [.decompressInit "in.iqz" "out", .decompress fun _ => 0, .decompressFin]
      (newDecompressor (zeroStorage _) : Client (Given U8) (Given U8)) (fileOf bytes)).isSome = true
      from by decide)
    exact ⟨x, fs', hr⟩
  have hfile : (fileOf bytes).content "in.iqz" = some bytes := rfl
  let parsed := (DecompressorImpl.construct (zeroStorage (Given U8))).dCcsdsCipHdr.parseBuffer
    (bytes.take IqzipCompressionHeader.maxHeaderSize)
  have hsize : parsed.1 = 16 := by decide
  have hparse : parsed = (16, parsed.2) := Prod.ext hsize rfl
  have hinit : (copying.init (aecParamsOf parsed.2.decodedConfig)).2 = some Given.start := rfl
  obtain ⟨status, t, written, hends, -, hfiles⟩ :=
    decompress_ends hfile (by decide) (by decide) rfl hparse hinit hrun
  exact ⟨x, fs', status, t, written, hrun, hends, hfiles⟩

end New

end IQzip
