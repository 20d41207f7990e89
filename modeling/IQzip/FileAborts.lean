import IQzip.DecoderSessions
import IQzip.FileErrors

/-! # When a file session aborts

`compress_ends` and `decompress_ends` say how a session of the file functions returns; here is when
it does not, for any libaec. Without a coder state the first call aborts. With one the buffers are
safe as long as `total_out` is an `int` that holds the count: a session aborts exactly when a turn
of its loop begins with `2^31` bytes written and its call succeeds. -/

namespace IQzip

open Library

variable {σ τ : Type}

/-- Over `input`, a call that succeeds begins with `2^31` bytes written. -/
def Overflows (api : Aec σ) (s₀ : σ) (input : List U8) : Prop :=
  ∃ q, Loops (Pump.step api.coder chunk) (Pump.start s₀ input) q
    ∧ (q.inputAvail || q.outputAvail) = true ∧ (q.answer api.coder chunk).status = 0
    ∧ 2 ^ 31 ≤ q.written.length

/-! ## The loop -/

namespace FileLoop

variable {api : Aec σ} {fs₀ : FileSystem} {fin fout : String} {base input : List U8}
  {l : FileLoop σ} {s₀ : σ} {e : Abort}

/-- **Where the pump gets to the bound the loop aborts**, at the first head that does. -/
theorem Represents.aborts (hne : fin ≠ fout) {p q : Pump σ U8 U8}
    (h : Represents fs₀ fin fout base l p) (hloops : Loops (Pump.step api.coder chunk) p q)
    (hgo : (q.inputAvail || q.outputAvail) = true) (hok : (q.answer api.coder chunk).status = 0)
    (hge : 2 ^ 31 ≤ q.written.length) : Exits (FileLoop.step api) l (.error .outOfBounds) := by
  -- on the turns of the pump that are left
  induction hloops using Relation.ReflTransGen.head_induction_on generalizing l with
  | refl => exact .now (h.overflow hne hgo hok hge)
  | @head p p' hturn _ ih =>
    have hgo' := Pump.flags_of_step_inl hturn
    obtain ⟨hok', rfl⟩ := Pump.eq_of_step_inl hturn
    by_cases hlt : p.written.length < 2 ^ 31
    · obtain ⟨l', hstep, hnext⟩ := h.turn hne hgo' hok' hlt
      exact (ih hnext).turn hstep
    · exact .now (h.overflow hne hgo' hok' (Nat.le_of_not_lt hlt))

/-- A head at which the loop aborts is at the bound. -/
theorem Represents.aborts_inv (hne : fin ≠ fout) {q : Pump σ U8 U8}
    (h : Represents fs₀ fin fout base l q) (hstep : l.step api = .inr (.error e)) :
    e = .outOfBounds ∧ (q.inputAvail || q.outputAvail) = true
      ∧ (q.answer api.coder chunk).status = 0 ∧ 2 ^ 31 ≤ q.written.length := by
  by_cases hgo : (q.inputAvail || q.outputAvail) = true
  · by_cases hok : (q.answer api.coder chunk).status = 0
    · by_cases hlt : q.written.length < 2 ^ 31
      · obtain ⟨l', hturn, -⟩ := h.turn hne hgo hok hlt
        rw [hstep] at hturn
        cases hturn
      · have hge := Nat.le_of_not_lt hlt
        rw [h.overflow hne hgo hok hge] at hstep
        cases hstep
        exact ⟨rfl, hgo, hok, hge⟩
    · obtain ⟨l', hfail⟩ := h.failed hne hgo hok
      rw [hstep] at hfail
      cases hfail
  · rw [h.leaves hgo] at hstep
    cases hstep

/-- **The loop aborts exactly at the bound.** -/
theorem Represents.aborts_iff (hne : fin ≠ fout)
    (h : Represents fs₀ fin fout base l (Pump.start s₀ input)) :
    Exits (FileLoop.step api) l (.error e) ↔ e = .outOfBounds ∧ Overflows api s₀ input := by
  constructor
  · rintro ⟨last, hloops, hlast⟩
    obtain ⟨q, hq, hrep, -⟩ := h.loops_inv hne hloops
    obtain ⟨he, hgo, hok, hge⟩ := hrep.aborts_inv hne hlast
    exact ⟨he, q, hq, hgo, hok, hge⟩
  · rintro ⟨rfl, q, hq, hgo, hok, hge⟩
    exact h.aborts hne hq hgo hok hge

/-- Without a coder state the loop aborts in its first turn. -/
theorem exits_start_of_none {c : IqzipImpl σ} {fs : FileSystem} {out : Buffer}
    (hs : c.dStrm.state = none) :
    Exits (FileLoop.step api) (start c fs out) (.error .nullCoderState) := by
  have hread : (start c fs out).refill.impl.dStrm.state = none := by
    unfold refill
    split
    · exact hs
    · exact hs
  have hcode : api.code .noFlush (start c fs out).refill.impl.dStrm (start c fs out).refill.out
      = .error .nullCoderState := Aec.code_of_state_none .noFlush hread
  refine .now ?_
  rw [FileLoop.step, if_pos (show ((start c fs out).inputAvail || _) = true from rfl)]
  simp only [hcode]

end FileLoop

/-! ## The functions -/

namespace IqzipImpl

variable {api : Aec σ} {c : IqzipImpl σ} {fs : FileSystem} {fin fout : String} {cell : Nat → U8}
  {pos : Nat} {base : List U8} {s₀ : σ} {e : Abort}

/-- More fuel changes nothing for a `compress()` that returns. -/
theorem compress_fuelMono (api : Aec σ) (cell : Nat → U8) (c : IqzipImpl σ) (fs : FileSystem) :
    FuelMono fun fuel => c.compress api fuel cell fs := (iterate_fuelMono _ _).map _

/-- Nor for a `decompress()`. -/
theorem decompress_fuelMono (api : Aec σ) (cell : Nat → U8) (c : IqzipImpl σ) (fs : FileSystem) :
    FuelMono fun fuel => c.decompress api fuel cell fs := (iterate_fuelMono _ _).map _

/-- After the loop the count is below the bound, so `compress()` aborts when its loop does. -/
theorem compress_abort_iff (hopen : FileLoop.Opened c fs fin fout pos base s₀) (hne : fin ≠ fout) :
    Returns (fun fuel => c.compress api fuel cell fs) (.error e)
      ↔ e = .outOfBounds ∧ Overflows api s₀ ((fs.bytesAt fin).drop pos) := by
  have hstart := hopen.represents cell
  unfold compress
  rw [(iterate_fuelMono _ _).returns_error_iff (fun _ => rfl) ?_, returns_iterate_iff,
    hstart.aborts_iff hne]
  rintro ⟨status, l⟩ e' hturns
  obtain ⟨q, -, hends⟩ := hstart.exits_inv hne (returns_iterate_iff.mp hturns)
  rcases hends with ⟨herr, -⟩ | ⟨rfl, -, hlt, hrep⟩
  · simp only [if_pos (show status ≠ aecOk from herr)]
    intro heq
    cases heq
  · obtain ⟨status', c', fs', hflush⟩ : ∃ status c fs, l.flush api = .ok (status, c, fs) :=
      hrep.flush_returns hlt
    simp only [if_neg (show ¬ (0 : Int) ≠ aecOk from not_not_intro rfl), hflush]
    intro heq
    cases heq

/-- `decompress()` is its loop. -/
theorem decompress_abort_iff (hopen : FileLoop.Opened c fs fin fout pos base s₀)
    (hne : fin ≠ fout) : Returns (fun fuel => c.decompress api fuel cell fs) (.error e)
      ↔ e = .outOfBounds ∧ Overflows api s₀ ((fs.bytesAt fin).drop pos) := by
  unfold decompress
  rw [(iterate_fuelMono _ _).returns_error_iff (fun _ => rfl) ?_, returns_iterate_iff,
    (hopen.represents cell).aborts_iff hne]
  rintro ⟨status, l⟩ e' -
  intro heq
  cases heq

/-- Without a coder state nothing but the abort of the first turn comes out of the loop. -/
theorem loop_of_none {result : Except Abort (Int × FileLoop σ)} {out : Buffer}
    (hs : c.dStrm.state = none) :
    Returns (fun fuel => iterate (FileLoop.step api) fuel (FileLoop.start c fs out)) result
      ↔ result = .error .nullCoderState := by
  have hexit := @FileLoop.exits_start_of_none σ api c fs out hs
  rw [returns_iterate_iff]
  exact ⟨fun h => h.unique hexit, fun h => h ▸ hexit⟩

/-- Without a coder state `compress()` aborts, and does nothing else. -/
theorem compress_abort_of_none (hs : c.dStrm.state = none)
    {result : Outcome (IqzipImpl σ)} :
    Returns (fun fuel => c.compress api fuel cell fs) result ↔ result = .error .nullCoderState := by
  unfold compress
  simp only [(iterate_fuelMono _ _).returns_map_iff, loop_of_none hs, exists_eq_left]
  exact eq_comm

/-- So does `decompress()`. -/
theorem decompress_abort_of_none (hs : c.dStrm.state = none)
    {result : Outcome (IqzipImpl σ)} :
    Returns (fun fuel => c.decompress api fuel cell fs) result
      ↔ result = .error .nullCoderState := by
  unfold decompress
  simp only [(iterate_fuelMono _ _).returns_map_iff, loop_of_none hs, exists_eq_left]
  exact eq_comm

end IqzipImpl

/-! ## Sessions -/

/-- How a file session aborts whose init opened both files: `state` is what the coder's init left,
and `input` what the loop reads. -/
def FileAborts (api : Aec σ) (state : Option σ) (input : List U8) (e : Abort) : Prop :=
  (e = .nullCoderState ∧ state = none)
    ∨ (e = .outOfBounds ∧ ∃ s₀, state = some s₀ ∧ Overflows api s₀ input)

namespace IqzipImpl

variable {api : Aec σ} {c : IqzipImpl σ} {fs : FileSystem} {fin fout : String} {cell : Nat → U8}
  {input : List U8} {e : Abort}

/-- **A session of the file compressor.** What `compress()` returns has a coder state, so the end
function aborts in no case. -/
theorem compressFile_abort_iff (hin : c.inputStream = .closed) (hout : c.outputStream = .closed)
    (hfile : fs.content fin = some input) (hne : fin ≠ fout) (hw : fs.writable fout = true) :
    Returns (fun fuel => c.compressFile api fuel cell fs fin fout) (.error e)
      ↔ FileAborts api (api.init (aecParamsOf c.config)).2 input e := by
  unfold compressFile FileAborts
  simp only [compressInit_eq hin hout hfile hne hw]
  cases hstate : (api.init (aecParamsOf c.config)).2 with
  | none =>
    rw [(compress_fuelMono ..).returns_error_iff (fun _ => rfl) ?_]
    · rw [compress_abort_of_none rfl]
      simp
    · rintro result e' hrun
      cases (compress_abort_of_none rfl).mp hrun
  | some s₀ =>
    obtain ⟨hopen, hsource⟩ := opened_of_init c c.dCcsdsCipHdr.headerBytes s₀ hne hfile
    rw [(compress_fuelMono ..).returns_error_iff (fun _ => rfl) ?_]
    · rw [compress_abort_iff hopen hne, hsource]
      simp
    · rintro ⟨status, c', fs'⟩ e' ⟨n, hn⟩
      obtain ⟨s, -, -, hs, -⟩ := hopen.compress_inv hne (hn n (Nat.le_refl n))
      obtain ⟨status', c₂, hend, -⟩ := fin_of_state api fs' hs
      simp only [compressFin, hend]
      intro heq
      cases heq

end IqzipImpl

/-- **A session of the file decompressor**, on a file that a header can be read from. -/
theorem DecompressorImpl.decompressFile_abort_iff {api : Aec τ} {d : DecompressorImpl τ}
    {fs : FileSystem} {fin fout : String} {cell : Nat → U8} {bytes : List U8} {e : Abort}
    (hin : d.inputStream = .closed) (hout : d.outputStream = .closed)
    (hfile : fs.content fin = some bytes)
    (hlen : IqzipCompressionHeader.maxHeaderSize ≤ bytes.length) (hne : fin ≠ fout)
    (hw : fs.writable fout = true) {size : Nat} {hdr : IqzipCompressionHeader}
    (hparse : d.dCcsdsCipHdr.parseBuffer (bytes.take IqzipCompressionHeader.maxHeaderSize)
      = (size, hdr)) :
    Returns (fun fuel => d.decompressFile api fuel cell fs fin fout) (.error e)
      ↔ FileAborts api (api.init (aecParamsOf hdr.decodedConfig)).2 (bytes.drop size) e := by
  unfold decompressFile FileAborts
  simp only [decompressInit_eq hin hout hfile hlen hw hparse]
  cases hstate : (api.init (aecParamsOf hdr.decodedConfig)).2 with
  | none =>
    rw [(IqzipImpl.decompress_fuelMono ..).returns_error_iff (fun _ => rfl) ?_]
    · rw [IqzipImpl.decompress_abort_of_none rfl]
      simp
    · rintro result e' hrun
      cases (IqzipImpl.decompress_abort_of_none rfl).mp hrun
  | some s₀ =>
    obtain ⟨hopen, hsource⟩ := opened_represents d size hdr s₀ hfile hne
    rw [(IqzipImpl.decompress_fuelMono ..).returns_error_iff (fun _ => rfl) ?_]
    · rw [IqzipImpl.decompress_abort_iff hopen hne, hsource]
      simp
    · rintro ⟨status, c', fs'⟩ e' ⟨n, hn⟩
      obtain ⟨s, -, -, hs, -⟩ := hopen.decompress_inv hne (hn n (Nat.le_refl n))
      obtain ⟨status', c₂, hend, -⟩ := IqzipImpl.fin_of_state api fs' hs
      simp only [IqzipImpl.decompressFin, hend]
      intro heq
      cases heq

/-- **When a file session aborts**, for any libaec and any failing calls, on an object with closed
streams, an input file and another file that can be written: without a coder state, or when a call
of the loop succeeds that begins with `2^31` bytes written, and then by writing outside the output
buffer. The input of a decompressor has room for the longest header; the read of `decompress_init`
behind that buffer is left aside. -/
theorem fileSessions_abort_iff {fs : FileSystem} {fin fout : String} {bytes : List U8}
    (hfile : fs.content fin = some bytes) (hne : fin ≠ fout) (hw : fs.writable fout = true)
    (cell : Nat → U8) (e : Abort) :
    (∀ (enc : Aec σ) (c : IqzipImpl σ), c.inputStream = .closed → c.outputStream = .closed →
        (Returns (fun fuel => c.compressFile enc fuel cell fs fin fout) (.error e)
          ↔ FileAborts enc (enc.init (aecParamsOf c.config)).2 bytes e))
      ∧ ∀ (dec : Aec τ) (d : DecompressorImpl τ), d.inputStream = .closed →
        d.outputStream = .closed → IqzipCompressionHeader.maxHeaderSize ≤ bytes.length →
          (Returns (fun fuel => d.decompressFile dec fuel cell fs fin fout) (.error e)
            ↔ FileAborts dec (dec.init (d.fileParams bytes)).2
              (bytes.drop (d.dCcsdsCipHdr.parseBuffer
                (bytes.take IqzipCompressionHeader.maxHeaderSize)).1) e) := by
  constructor
  · intro enc c hin hout
    exact IqzipImpl.compressFile_abort_iff hin hout hfile hne hw
  · intro dec d hin hout hlen
    exact DecompressorImpl.decompressFile_abort_iff hin hout hfile hlen hne hw Prod.mk.eta.symm

open CodecImpl in
/-- An encoder that gives no state. -/
theorem fileSessions_abort_refused :
    let refusing : Aec (Given U8) := { copying with init := fun _ => (-1, none) }
    Returns (fun fuel => byteCompressor.compressFile refusing fuel (fun _ => 0) (fileOf [7])
      "in.iqz" "out.iqz") (.error .nullCoderState) := by
  intro refusing
  have haborts : FileAborts refusing (refusing.init (aecParamsOf byteConfig)).2 [7]
      .nullCoderState := Or.inl ⟨rfl, rfl⟩
  have hfile : (fileOf [7]).content "in.iqz" = some [7] := rfl
  have hboth := @fileSessions_abort_iff (Given U8) (Given U8) _ _ _ _ hfile
    (show "in.iqz" ≠ "out.iqz" by decide) rfl (fun _ => 0) .nullCoderState
  exact (hboth.1 refusing byteCompressor.toIqzipImpl rfl rfl).mpr haborts

end IQzip
