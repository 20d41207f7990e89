import IQzip.Appending
import IQzip.Sessions
import IQzip.Library.Footprint

/-! # Calls on an object

The member functions of `compressor` and `decompressor` as the calls a program makes, in any order
and with any arguments, going on whatever status a call returns. `Client.call` is one call; a run of
calls on one object is `solo`, and calls on many objects are a `run`.

No call touches a file but the one that the object writes: `solo_files` says for a whole run what
becomes of the other files, and of the written one between two inits. -/

namespace IQzip

open Library

variable {σ τ : Type}

/-! ## Objects and calls -/

/-- An object of the library: what `create_compressor` or `create_decompressor` returns. -/
inductive Codec (σ τ : Type)
  | compressor (c : CodecImpl σ)
  | decompressor (d : DecompressorImpl τ)

namespace Codec

/-- `input_stream`. -/
def inputStream : Codec σ τ → InputStream
  | compressor c => c.inputStream
  | decompressor d => d.inputStream

/-- `output_stream`. -/
def outputStream : Codec σ τ → OutputStream
  | compressor c => c.outputStream
  | decompressor d => d.outputStream

end Codec

/-- The member functions with their arguments. `cell` is what the memory holds that `compress` and
`decompress` allocate for their output. -/
inductive Call
  | compressInit (fin fout : String)
  | compress (cell : Nat → U8)
  | compressFin
  | streamCompressInit (fout : String)
  | streamCompress (inbuf : InBuf)
  | streamCompressFin
  | decompressInit (fin fout : String)
  | decompress (cell : Nat → U8)
  | decompressFin
  | streamDecompress (inbuf : InBuf)
  | streamDecompressFin

namespace Call

/-- The input file a call names. -/
def fin : Call → Option String
  | compressInit fin _ => some fin
  | decompressInit fin _ => some fin
  | _ => none

/-- The output file a call names. -/
def fout : Call → Option String
  | compressInit _ fout => some fout
  | streamCompressInit fout => some fout
  | decompressInit _ fout => some fout
  | _ => none

end Call

/-- The outcome of a member function that works on a part of the object. -/
def Outcome.lift {β γ : Type} (f : β → γ) (o : Outcome β) : Outcome γ :=
  o.map fun r => (r.1, f r.2.1, r.2.2)

/-- A call, with fuel for the loops of `compress` and `decompress`. A function that the class of the
object does not have cannot be called. -/
def Codec.call (enc : Aec σ) (dec : Aec τ) (fuel : Nat) (fs : FileSystem) :
    Call → Codec σ τ → Option (Outcome (Codec σ τ))
  | .compressInit fin fout, .compressor c =>
    some ((c.compressInit enc fs fin fout).lift fun base =>
      .compressor { c with toIqzipImpl := base })
  | .compress cell, .compressor c =>
    (c.compress enc fuel cell fs).map (Outcome.lift fun base =>
      .compressor { c with toIqzipImpl := base })
  | .compressFin, .compressor c =>
    some ((c.compressFin enc fs).lift fun base => .compressor { c with toIqzipImpl := base })
  | .streamCompressInit fout, .compressor c =>
    some ((c.streamCompressInit enc fs fout).lift .compressor)
  | .streamCompress inbuf, .compressor c => some ((c.streamCompress enc fs inbuf).lift .compressor)
  | .streamCompressFin, .compressor c => some ((c.streamCompressFin enc fs).lift .compressor)
  | .decompressInit fin fout, .decompressor d =>
    some ((d.decompressInit dec fs fin fout).lift .decompressor)
  | .decompress cell, .decompressor d =>
    (d.decompress dec fuel cell fs).map (Outcome.lift fun base =>
      .decompressor { d with toIqzipImpl := base })
  | .decompressFin, .decompressor d =>
    some ((d.decompressFin dec fs).lift fun base => .decompressor { d with toIqzipImpl := base })
  | .streamDecompress inbuf, .decompressor d =>
    some ((d.streamDecompress dec fs inbuf).lift fun c => .decompressor { d with toCodecImpl := c })
  | .streamDecompressFin, .decompressor d =>
    some ((d.streamDecompressFin dec fs).lift fun c => .decompressor { d with toCodecImpl := c })
  | _, _ => none

/-- What a program has of an object: the object, and the statuses its calls have returned. -/
structure Client (σ τ : Type) where
  object : Codec σ τ
  statuses : List Int

/-- A call that returns: the program goes on with the object and one more status. -/
def Client.call (enc : Aec σ) (dec : Aec τ) (fuel : Nat) (k : Call) (x : Client σ τ)
    (fs : FileSystem) : Option (Client σ τ × FileSystem) :=
  match x.object.call enc dec fuel fs k with
  | some (.ok (status, object, fs)) => some ({ object, statuses := x.statuses ++ [status] }, fs)
  | _ => none

/-- What a program has of a new compressor. -/
def newCompressor (storage : ObjectStorage σ) (cfg : Config) : Client σ τ :=
  { object := .compressor (CompressorImpl.construct storage cfg), statuses := [] }

/-- What a program has of a new decompressor. -/
def newDecompressor (storage : ObjectStorage τ) : Client σ τ :=
  { object := .decompressor (DecompressorImpl.construct storage), statuses := [] }

/-- A run goes through its first call. -/
theorem Client.solo_cons_inv {enc : Aec σ} {dec : Aec τ} {fuel : Nat} {k : Call} {ks : List Call}
    {x : Client σ τ} {fs : FileSystem} {r : Client σ τ × FileSystem}
    (h : solo (Client.call enc dec fuel) (k :: ks) x fs = some r) :
    ∃ status object fs₁, x.object.call enc dec fuel fs k = some (.ok (status, object, fs₁))
      ∧ solo (Client.call enc dec fuel) ks { object, statuses := x.statuses ++ [status] } fs₁
        = some r := by
  obtain ⟨⟨x₁, fs₁⟩, hcall, hrest⟩ := Option.bind_eq_some_iff.mp h
  unfold Client.call at hcall
  split at hcall
  · next hobject =>
    cases hcall
    exact ⟨_, _, _, hobject, hrest⟩
  · cases hcall

/-! ## What the init functions may do -/

/-- A step that may open the files it names, and may change the output file it names. -/
structure IqzipImpl.Opens (c c' : IqzipImpl σ) (fin fout : Option String) (fs fs' : FileSystem) :
    Prop where
  input : ∀ ⦃p⦄, c'.inputStream.path = some p → c.inputStream.path = some p ∨ fin = some p
  output : ∀ ⦃p⦄, c'.outputStream.path = some p → c.outputStream.path = some p ∨ fout = some p
  writable : fs'.writable = fs.writable
  others : ∀ ⦃p⦄, fout ≠ some p → fs'.content p = fs.content p

section Init

variable {api : Aec σ} {fs fs' : FileSystem} {fin fout : String} {status : Int}

/-- The header is written to its file only. -/
theorem IqzipCompressionHeader.writeHeaderToFile_others {h : IqzipCompressionHeader} {path : String}
    (hwrite : h.writeHeaderToFile fs path = .ok fs') :
    fs'.writable = fs.writable ∧ ∀ ⦃p⦄, some path ≠ some p → fs'.content p = fs.content p := by
  unfold writeHeaderToFile at hwrite
  split_ifs at hwrite
  cases hwrite
  refine ⟨rfl, ?_⟩
  intro p hp
  exact FileSystem.content_put_of_ne _ _ fun heq => hp (congrArg some heq.symm)

/-- Opening a file for writing changes no other. -/
theorem OutputStream.openFile_others (s : OutputStream) (fs : FileSystem) (path : String)
    (app : Bool) : (s.openFile fs path app).2.writable = fs.writable
      ∧ ∀ ⦃p⦄, some path ≠ some p → (s.openFile fs path app).2.content p = fs.content p := by
  cases s with
  | opened old fail => exact ⟨rfl, fun _ _ => rfl⟩
  | closed =>
    unfold openFile
    dsimp only
    split_ifs
    all_goals first
      | exact ⟨rfl, fun _ _ => rfl⟩
      | exact ⟨rfl, fun p hp => FileSystem.content_put_of_ne _ _ fun heq =>
          hp (congrArg some heq.symm)⟩

/-- `compress_init` opens its two files. -/
theorem IqzipImpl.compressInit_opens {c c' : IqzipImpl σ}
    (h : c.compressInit api fs fin fout = .ok (status, c', fs')) :
    c.Opens c' (some fin) (some fout) fs fs' := by
  unfold compressInit at h
  dsimp only at h
  split at h
  · cases h
  · next fs₁ hwrite =>
    obtain ⟨hwritable, hothers⟩ := IqzipCompressionHeader.writeHeaderToFile_others hwrite
    have hin : ∀ ⦃p⦄, (c.inputStream.openFile fs₁ fin).path = some p →
        c.inputStream.path = some p ∨ some fin = some p :=
      fun p hp => (InputStream.path_openFile _ _ _ hp).imp_right (congrArg some)
    have hout : ∀ ⦃p⦄, (c.outputStream.openFile fs₁ fout true).1.path = some p →
        c.outputStream.path = some p ∨ some fout = some p :=
      fun p hp => (OutputStream.path_openFile _ _ _ _ hp).imp_right (congrArg some)
    obtain ⟨hwritable', hothers'⟩ := c.outputStream.openFile_others fs₁ fout true
    split_ifs at h
    · cases h
      exact ⟨hin, fun _ hp => Or.inl hp, hwritable, hothers⟩
    all_goals
      cases h
      exact ⟨hin, hout, hwritable'.trans hwritable,
        fun p hp => (hothers' hp).trans (hothers hp)⟩

/-- `stream_compress_init` opens its output file. -/
theorem CodecImpl.streamCompressInit_opens {c c' : CodecImpl σ}
    (h : c.streamCompressInit api fs fout = .ok (status, c', fs')) :
    c.Opens c'.toIqzipImpl none (some fout) fs fs' := by
  unfold streamCompressInit at h
  dsimp only at h
  split at h
  · cases h
  · next fs₁ hwrite =>
    obtain ⟨hwritable, hothers⟩ := IqzipCompressionHeader.writeHeaderToFile_others hwrite
    have hout : ∀ ⦃p⦄, (c.outputStream.openFile fs₁ fout true).1.path = some p →
        c.outputStream.path = some p ∨ some fout = some p :=
      fun p hp => (OutputStream.path_openFile _ _ _ _ hp).imp_right (congrArg some)
    obtain ⟨hwritable', hothers'⟩ := c.outputStream.openFile_others fs₁ fout true
    split_ifs at h
    all_goals
      cases h
      exact ⟨fun _ hp => Or.inl hp, hout, hwritable'.trans hwritable,
        fun p hp => (hothers' hp).trans (hothers hp)⟩

/-- `decompress_init` opens its two files. -/
theorem DecompressorImpl.decompressInit_opens {d d' : DecompressorImpl σ}
    (h : d.decompressInit api fs fin fout = .ok (status, d', fs')) :
    d.Opens d'.toIqzipImpl (some fin) (some fout) fs fs' := by
  unfold decompressInit at h
  split at h
  · cases h
  · next d₁ hread =>
    have hstreams : d₁.inputStream = d.inputStream ∧ d₁.outputStream = d.outputStream := by
      unfold readHeader at hread
      split at hread
      · cases hread
      · cases hread
        exact ⟨rfl, rfl⟩
    have hin : ∀ ⦃p⦄, (d₁.inputStream.openFile fs fin).path = some p →
        d.inputStream.path = some p ∨ some fin = some p := by
      rw [hstreams.1]
      exact fun p hp => (InputStream.path_openFile _ _ _ hp).imp_right (congrArg some)
    have hout : ∀ ⦃p⦄, (d₁.outputStream.openFile fs fout false).1.path = some p →
        d.outputStream.path = some p ∨ some fout = some p := by
      rw [hstreams.2]
      exact fun p hp => (OutputStream.path_openFile _ _ _ _ hp).imp_right (congrArg some)
    obtain ⟨hwritable, hothers⟩ := d₁.outputStream.openFile_others fs fout false
    dsimp only at h
    split_ifs at h
    · cases h
      exact ⟨hin, fun p hp => Or.inl (hstreams.2 ▸ hp), rfl, fun _ _ => rfl⟩
    · cases h
      exact ⟨hin, hout, hwritable, hothers⟩
    · cases h
      refine ⟨?_, hout, hwritable, hothers⟩
      intro p hp
      exact hin (InputStream.path_seekg _ _ ▸ hp)

end Init

/-! ## What any call may do -/

/-- The effect of a call: it may open the files it names, change the output file it names and append
to the file that the object writes. -/
structure Codec.Effect (k : Call) (o o' : Codec σ τ) (fs fs' : FileSystem) : Prop where
  input : ∀ ⦃p⦄, o'.inputStream.path = some p → o.inputStream.path = some p ∨ k.fin = some p
  output : ∀ ⦃p⦄, o'.outputStream.path = some p → o.outputStream.path = some p ∨ k.fout = some p
  writable : fs'.writable = fs.writable
  others : ∀ ⦃p⦄, o.outputStream.path ≠ some p → k.fout ≠ some p → fs'.content p = fs.content p
  appended : ∀ ⦃p⦄, k.fout ≠ some p → fs.bytesAt p <+: fs'.bytesAt p

namespace Codec

variable {k : Call} {o o' : Codec σ τ} {fs fs' : FileSystem} {status : Int}

/-- A function that appends has the effect of a call without files. -/
theorem Effect.of_appends {ρ : Type} {c c' : IqzipImpl ρ} (h : c.Appends c' fs fs')
    (hin : o.inputStream = c.inputStream) (hout : o.outputStream = c.outputStream)
    (hin' : o'.inputStream = c'.inputStream) (hout' : o'.outputStream = c'.outputStream) :
    Effect k o o' fs fs' where
  input := by
    rw [hin, hin']
    exact fun _ hp => Or.inl (h.input hp)
  output := by
    rw [hout, hout']
    exact fun _ hp => Or.inl (h.output hp)
  writable := h.files.writable
  others := by
    rw [hout]
    exact fun _ hp _ => h.files.others hp
  appended := fun p _ => h.files.appended p

/-- An init function has the effect of a call with its files. -/
theorem Effect.of_opens {ρ : Type} {c c' : IqzipImpl ρ} (h : c.Opens c' k.fin k.fout fs fs')
    (hin : o.inputStream = c.inputStream) (hout : o.outputStream = c.outputStream)
    (hin' : o'.inputStream = c'.inputStream) (hout' : o'.outputStream = c'.outputStream) :
    Effect k o o' fs fs' where
  input := by
    rw [hin, hin']
    exact h.input
  output := by
    rw [hout, hout']
    exact h.output
  writable := h.writable
  others := fun _ _ hp => h.others hp
  appended := by
    intro p hp
    rw [FileSystem.bytesAt, FileSystem.bytesAt, h.others hp]

/-- A lifted outcome is one of the part. -/
theorem eq_of_lift {β γ : Type} {f : β → γ} {o : Outcome β} {status : Int} {c : γ}
    {fs : FileSystem} (h : o.lift f = .ok (status, c, fs)) :
    ∃ b, o = .ok (status, b, fs) ∧ c = f b := by
  cases o with
  | error e => cases h
  | ok r =>
    cases h
    exact ⟨_, rfl, rfl⟩

/-- **Step rule**: every call that returns, whatever its status. -/
theorem call_effect {enc : Aec σ} {dec : Aec τ} {fuel : Nat}
    (h : o.call enc dec fuel fs k = some (.ok (status, o', fs'))) : Effect k o o' fs fs' := by
  cases o with
  | compressor c =>
    cases k with
    | compressInit fin fout =>
      obtain ⟨b, hrun, rfl⟩ := eq_of_lift (Option.some.inj h)
      exact .of_opens (IqzipImpl.compressInit_opens hrun) rfl rfl rfl rfl
    | compress cell =>
      obtain ⟨r, hrun, hlift⟩ := Option.map_eq_some_iff.mp h
      obtain ⟨b, rfl, rfl⟩ := eq_of_lift hlift
      exact .of_appends (IqzipImpl.compress_appends hrun) rfl rfl rfl rfl
    | compressFin =>
      obtain ⟨b, hrun, rfl⟩ := eq_of_lift (Option.some.inj h)
      exact .of_appends (IqzipImpl.fin_appends hrun) rfl rfl rfl rfl
    | streamCompressInit fout =>
      obtain ⟨b, hrun, rfl⟩ := eq_of_lift (Option.some.inj h)
      exact .of_opens (CodecImpl.streamCompressInit_opens hrun) rfl rfl rfl rfl
    | streamCompress inbuf =>
      obtain ⟨b, hrun, rfl⟩ := eq_of_lift (Option.some.inj h)
      exact .of_appends (CodecImpl.streamCode_appends hrun) rfl rfl rfl rfl
    | streamCompressFin =>
      obtain ⟨b, hrun, rfl⟩ := eq_of_lift (Option.some.inj h)
      exact .of_appends (CodecImpl.streamFin_appends hrun) rfl rfl rfl rfl
    | _ => cases h
  | decompressor d =>
    cases k with
    | decompressInit fin fout =>
      obtain ⟨b, hrun, rfl⟩ := eq_of_lift (Option.some.inj h)
      exact .of_opens (DecompressorImpl.decompressInit_opens hrun) rfl rfl rfl rfl
    | decompress cell =>
      obtain ⟨r, hrun, hlift⟩ := Option.map_eq_some_iff.mp h
      obtain ⟨b, rfl, rfl⟩ := eq_of_lift hlift
      exact .of_appends (IqzipImpl.decompress_appends hrun) rfl rfl rfl rfl
    | decompressFin =>
      obtain ⟨b, hrun, rfl⟩ := eq_of_lift (Option.some.inj h)
      exact .of_appends (IqzipImpl.fin_appends hrun) rfl rfl rfl rfl
    | streamDecompress inbuf =>
      obtain ⟨b, hrun, rfl⟩ := eq_of_lift (Option.some.inj h)
      exact .of_appends (CodecImpl.streamCode_appends hrun) rfl rfl rfl rfl
    | streamDecompressFin =>
      obtain ⟨b, hrun, rfl⟩ := eq_of_lift (Option.some.inj h)
      exact .of_appends (CodecImpl.streamFin_appends hrun) rfl rfl rfl rfl
    | _ => cases h

end Codec

/-! ## Whole runs -/

section Solo

variable {enc : Aec σ} {dec : Aec τ} {fuel : Nat} {k : Call} {ks : List Call} {x x' : Client σ τ}
  {fs fs' : FileSystem}

/-- The same for a client. -/
theorem Client.call_effect (h : x.call enc dec fuel k fs = some (x', fs')) :
    Codec.Effect k x.object x'.object fs fs' := by
  unfold Client.call at h
  split at h
  · next hcall =>
    cases h
    exact Codec.call_effect hcall
  · cases h

/-- **What a run of calls does to a file that none of them names as output.** Whatever the calls and
whatever they return: the file only gets longer, and it stays as it is when the object does not
write it already. -/
theorem solo_files (h : solo (Client.call enc dec fuel) ks x fs = some (x', fs')) {p : String}
    (hp : ∀ k ∈ ks, k.fout ≠ some p) :
    fs.bytesAt p <+: fs'.bytesAt p
      ∧ (x.object.outputStream.path ≠ some p → fs'.content p = fs.content p) := by
  -- on the calls; the object is never attached to a file it was not given
  induction ks generalizing x fs with
  | nil =>
    cases h
    exact ⟨List.prefix_rfl, fun _ => rfl⟩
  | cons k ks ih =>
    obtain ⟨⟨x₁, fs₁⟩, hcall, hrest⟩ := Option.bind_eq_some_iff.mp h
    have heffect := Client.call_effect hcall
    have hk : k.fout ≠ some p := hp k List.mem_cons_self
    obtain ⟨hgrow, hkeep⟩ := ih hrest fun k' hk' => hp k' (List.mem_cons_of_mem k hk')
    refine ⟨(heffect.appended hk).trans hgrow, ?_⟩
    intro hout
    rw [hkeep fun hpath => (heffect.output hpath).elim hout hk, heffect.others hout hk]

open CodecImpl in
/-- A session that was given `a.iqz` leaves `b.iqz` alone. -/
theorem solo_files_oneByte :
    let new : Client (Given U8) (Given U8) :=
      { object := .compressor byteCompressor, statuses := [] }
    ∃ x' fs', solo (Client.call copying copying 0)
          [.streamCompressInit "a.iqz", .streamCompress (oneByte 1)] new (fileOf [7])
        = some (x', fs')
      ∧ fs'.content "b.iqz" = (fileOf [7]).content "b.iqz" := by
  intro new
  obtain ⟨x', fs', hrun⟩ : ∃ x' fs', solo (Client.call copying copying 0)
      [.streamCompressInit "a.iqz", .streamCompress (oneByte 1)] new (fileOf [7])
      = some (x', fs') := ⟨_, _, rfl⟩
  refine ⟨x', fs', hrun, (solo_files hrun ?_).2 nofun⟩
  decide

end Solo

end IQzip
