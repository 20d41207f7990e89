import IQzip.Calls
import IQzip.CommandLine
import IQzip.Lossless
import IQzip.Recovery

/-! # The command-line tool

`main` in full: the command line, an object, its three calls, and the exit status. The statuses of
the calls are thrown away, so the tool exits with 0 whenever it comes to its end.

* `tool_files`: what the tool leaves of the files, whatever libaec does.
* `tool_oldOutput`: what it makes of a file does not depend on what the output file held.
* `tool_roundTrip_iff`: when the input of one run is the output of the next. -/

namespace IQzip

open Library

variable {σ τ : Type}

/-! ## A run of the tool -/

/-- What a process finds: libaec, and memory that nobody has written. -/
structure Process (σ τ : Type) where
  enc : Aec σ
  dec : Aec τ
  compressorStorage : ObjectStorage σ
  decompressorStorage : ObjectStorage τ
  cell : Nat → U8

/-- A `char *` as the `std::string` of a path. -/
def pathOf (s : CString) : String := String.ofList s

/-- Different arguments are different paths. -/
theorem pathOf_injective {s t : CString} (h : pathOf s = pathOf t) : s = t :=
  String.ofList_injective h

/-- The object of a command and its three calls, with fuel for the loop. -/
def Command.run (P : Process σ τ) (fuel : Nat) (fs : FileSystem) :
    Command → Option (Outcome (IqzipImpl σ ⊕ IqzipImpl τ))
  | .compress cfg infn outfn =>
    ((CompressorImpl.construct P.compressorStorage cfg).compressFile P.enc fuel P.cell fs
      (pathOf infn) (pathOf outfn)).map (Outcome.lift .inl)
  | .decompress infn outfn =>
    ((DecompressorImpl.construct P.decompressorStorage).decompressFile P.dec fuel P.cell fs
      (pathOf infn) (pathOf outfn)).map (Outcome.lift .inr)

/-- `return 0`, whatever status the calls returned. -/
def Outcome.exit {γ : Type} (o : Outcome γ) : Except Abort (Nat × FileSystem) :=
  o.map fun r => (0, r.2.2)

/-- `main`: the exit status and the files. -/
def tool (P : Process σ τ) (fuel : Nat) (argv : List CString) (fs : FileSystem) :
    Option (Except Abort (Nat × FileSystem)) :=
  match main argv with
  -- `FAIL`
  | none => some (.ok (1, fs))
  | some cmd =>
    (cmd.run P fuel fs).map Outcome.exit

/-! ## The files -/

section Files

variable {api : Aec σ} {fuel : Nat} {cell : Nat → U8} {fs fs' : FileSystem} {fin fout : String}
  {status : Int}

/-- `compress_init` on closed streams leaves the header in the output file, and attaches the output
stream when there is an input file. -/
theorem IqzipImpl.compressInit_files {c c' : IqzipImpl σ} (hin : c.inputStream = .closed)
    (hout : c.outputStream = .closed) (h : c.compressInit api fs fin fout = .ok (status, c', fs')) :
    fs' = fs.put fout c.dCcsdsCipHdr.headerBytes
      ∧ c'.outputStream = if (fs'.content fin).isSome then .opened fout false else .closed := by
  unfold compressInit at h
  simp only [initCoder, initAecStream, IqzipCompressionHeader.writeHeaderToFile, hin, hout] at h
  by_cases hw : fs.writable fout = true
  · simp only [if_pos hw, InputStream.openFile, OutputStream.openFile, FileSystem.writable_put,
      FileSystem.bytesAt_put_self, FileSystem.put_put] at h
    by_cases hsource : ((fs.put fout c.dCcsdsCipHdr.headerBytes).content fin).isSome
    · simp only [if_pos hsource, InputStream.isOpen, OutputStream.isOpen, Bool.true_eq_false,
        if_false] at h
      cases h
      exact ⟨rfl, (if_pos hsource).symm⟩
    · simp only [if_neg hsource, InputStream.isOpen, if_true] at h
      cases h
      exact ⟨rfl, (if_neg hsource).symm⟩
  · simp only [if_neg hw] at h
    cases h

/-- **What a file session of a new compressor leaves.** Only the output file changes, it starts with
the header, and without an input file the header is all. -/
theorem IqzipImpl.compressFile_files {c c' : IqzipImpl σ} (hin : c.inputStream = .closed)
    (hout : c.outputStream = .closed)
    (h : c.compressFile api fuel cell fs fin fout = some (.ok (status, c', fs'))) :
    fs'.writable = fs.writable ∧ (∀ p, p ≠ fout → fs'.content p = fs.content p)
      ∧ c.dCcsdsCipHdr.headerBytes <+: fs'.bytesAt fout
      ∧ ((fs.put fout c.dCcsdsCipHdr.headerBytes).content fin = none →
        fs'.content fout = some c.dCcsdsCipHdr.headerBytes) := by
  unfold compressFile at h
  split at h
  · cases h
  · next status₁ c₁ fs₁ hinit =>
    obtain ⟨result, hrun, hend⟩ := Option.map_eq_some_iff.mp h
    split at hend
    · cases hend
    · obtain ⟨rfl, houtput⟩ := compressInit_files hin hout hinit
      have hrest := (compress_appends hrun).trans (fin_appends hend)
      refine ⟨hrest.files.writable, ?_, ?_, ?_⟩
      · intro p hp
        -- the stream is attached to the output file or to none
        have hpath : c₁.outputStream.path ≠ some p := by
          rw [houtput]
          split_ifs
          · exact fun heq => hp (Option.some.inj heq).symm
          · exact nofun
        rw [hrest.files.others hpath, FileSystem.content_put_of_ne _ _ hp]
      · have hgrow := hrest.files.appended fout
        rwa [FileSystem.bytesAt_put_self] at hgrow
      · intro hnone
        have hclosed : c₁.outputStream.path = none := by
          rw [houtput, hnone]
          rfl
        rw [hrest.files.others (by rw [hclosed]; exact nofun), FileSystem.content_put_self]

/-- **What a file session of a new decompressor leaves.** There is an input file of at least 18
bytes, and only the output file changes. -/
theorem DecompressorImpl.decompressFile_files {d : DecompressorImpl σ} {c' : IqzipImpl σ}
    (hout : d.outputStream = .closed)
    (h : d.decompressFile api fuel cell fs fin fout = some (.ok (status, c', fs'))) :
    fs'.writable = fs.writable ∧ (∀ p, p ≠ fout → fs'.content p = fs.content p)
      ∧ ∃ bytes, fs.content fin = some bytes
        ∧ IqzipCompressionHeader.maxHeaderSize ≤ bytes.length := by
  unfold decompressFile at h
  split at h
  · cases h
  · next status₁ d₁ fs₁ hinit =>
    obtain ⟨result, hrun, hend⟩ := Option.map_eq_some_iff.mp h
    split at hend
    · cases hend
    · have hopens := decompressInit_opens hinit
      have hrest := (IqzipImpl.decompress_appends hrun).trans (IqzipImpl.fin_appends hend)
      refine ⟨hrest.files.writable.trans hopens.writable, ?_, ?_⟩
      · intro p hp
        have hne : some fout ≠ some p := fun heq => hp (Option.some.inj heq).symm
        have hpath : d₁.outputStream.path ≠ some p := by
          intro hpath
          rcases hopens.output hpath with hold | hnew
          · rw [hout] at hold
            cases hold
          · exact hne hnew
        rw [hrest.files.others hpath, hopens.others hne]
      · -- the parser returned
        unfold decompressInit readHeader at hinit
        cases hparse : d.dCcsdsCipHdr.parseHeaderFromFile fs fin with
        | error e =>
          rw [hparse] at hinit
          cases hinit
        | ok result =>
          cases hfile : fs.content fin with
          | none =>
            simp only [IqzipCompressionHeader.parseHeaderFromFile, hfile] at hparse
            cases hparse
          | some bytes => exact ⟨bytes, rfl, length_of_parseHeaderFromFile hfile hparse⟩

end Files

/-- At most the file at `path` changes. -/
def ChangesOnly (path : String) (fs fs' : FileSystem) : Prop :=
  fs'.writable = fs.writable ∧ ∀ p, p ≠ path → fs'.content p = fs.content p

/-- **What the tool leaves** in a run that comes to an exit code, for every command line and
whatever libaec does. The code is 1, with nothing touched, exactly when the command line is wrong.
Otherwise it is 0 and at most the output file has changed. A compressed file starts with its header,
and is nothing but the header when there was no input and the output has another name. A run that
decompresses only comes to an exit code when the input has 18 bytes. -/
theorem tool_files {P : Process σ τ} {fuel : Nat} {argv : List CString} {fs fs' : FileSystem}
    {code : Nat} (h : tool P fuel argv fs = some (.ok (code, fs'))) :
    match main argv with
    | none => code = 1 ∧ fs' = fs
    | some (.compress cfg infn outfn) =>
      let header :=
        (IqzipCompressionHeader.construct P.compressorStorage.header cfg).headerBytes
      code = 0 ∧ ChangesOnly (pathOf outfn) fs fs' ∧ header <+: fs'.bytesAt (pathOf outfn)
        ∧ (fs.content (pathOf infn) = none → infn ≠ outfn →
          fs'.content (pathOf outfn) = some header)
    | some (.decompress infn outfn) =>
      code = 0 ∧ ChangesOnly (pathOf outfn) fs fs'
        ∧ 18 ≤ (fs.bytesAt (pathOf infn)).length := by
  unfold tool at h
  cases hmain : main argv with
  | none =>
    rw [hmain] at h
    cases h
    exact ⟨rfl, rfl⟩
  | some cmd =>
    rw [hmain] at h
    obtain ⟨o, hrun, hexit⟩ := Option.map_eq_some_iff.mp h
    cases cmd with
    | compress cfg infn outfn =>
      obtain ⟨o', hfile, rfl⟩ := Option.map_eq_some_iff.mp hrun
      match o' with
      | .error e => cases hexit
      | .ok (status, c, fs₁) =>
        cases hexit
        obtain ⟨hwritable, hothers, hheader, hnone⟩ :=
          IqzipImpl.compressFile_files rfl rfl hfile
        refine ⟨rfl, ⟨hwritable, hothers⟩, hheader, ?_⟩
        intro hmissing hne
        apply hnone
        rw [FileSystem.content_put_of_ne _ _ fun heq => hne (pathOf_injective heq), hmissing]
    | decompress infn outfn =>
      obtain ⟨o', hfile, rfl⟩ := Option.map_eq_some_iff.mp hrun
      match o' with
      | .error e => cases hexit
      | .ok (status, c, fs₁) =>
        cases hexit
        obtain ⟨hwritable, hothers, bytes, hbytes, hlen⟩ :=
          DecompressorImpl.decompressFile_files rfl hfile
        refine ⟨rfl, ⟨hwritable, hothers⟩, ?_⟩
        rw [FileSystem.bytesAt, hbytes]
        exact hlen

/-- Two file names and no options. -/
theorem main_default : main [['i', 'q'], ['a'], ['b']]
    = some (.compress (commandLineConfig 1 1 1 0 8 1 64) ['a'] ['b']) := by
  rw [main_eq]
  decide

/-- A process whose coder copies. -/
def copyingProcess : Process (Given U8) (Given U8) :=
  { enc := CodecImpl.copying
    dec := CodecImpl.copying
    compressorStorage := zeroStorage _
    decompressorStorage := zeroStorage _
    cell := fun _ => 0 }

/-- Without an input file the tool exits with 0, and the output file is a header. -/
theorem tool_files_missing :
    ∃ fs', tool copyingProcess 2 [['i', 'q'], ['a'], ['b']] .empty = some (.ok (0, fs'))
      ∧ fs'.content (pathOf ['b'])
        = some (zeroedHeader (commandLineConfig 1 1 1 0 8 1 64)).headerBytes := by
  obtain ⟨fs', hrun⟩ : ∃ fs', tool copyingProcess 2 [['i', 'q'], ['a'], ['b']] .empty
      = some (.ok (0, fs')) := by
    rw [tool, main_default]
    exact ⟨_, rfl⟩
  have hleaves := tool_files hrun
  rw [main_default] at hleaves
  exact ⟨fs', hrun, hleaves.2.2.2 rfl (by decide)⟩

/-! ## The old output -/

section OldOutput

variable (api : Aec σ) (fuel : Nat) (cell : Nat → U8) (fs : FileSystem) (fin fout : String)

/-- The header replaces what the output file held. -/
theorem IqzipImpl.compressFile_put (c : IqzipImpl σ) (xs : List U8)
    (hw : fs.writable fout = true) :
    c.compressFile api fuel cell (fs.put fout xs) fin fout
      = c.compressFile api fuel cell fs fin fout := by
  have hinit : c.compressInit api (fs.put fout xs) fin fout = c.compressInit api fs fin fout := by
    simp only [compressInit, IqzipCompressionHeader.writeHeaderToFile, FileSystem.writable_put,
      if_pos hw, FileSystem.put_put]
  simp only [compressFile, hinit]

/-- What the parser finds in the input does not depend on the output file, unless they are the same
file: then on its first 18 bytes. -/
theorem IqzipCompressionHeader.parseHeaderFromFile_put (g : IqzipCompressionHeader)
    {xs ys : List U8} (h : fin = fout → xs.take maxHeaderSize = ys.take maxHeaderSize) :
    g.parseHeaderFromFile (fs.put fout xs) fin = g.parseHeaderFromFile (fs.put fout ys) fin := by
  by_cases heq : fin = fout
  · subst heq
    simp only [parseHeaderFromFile, FileSystem.content_put_self, h rfl]
  · simp only [parseHeaderFromFile, FileSystem.content_put_of_ne _ _ heq]

/-- A file that was parsed can be opened. -/
theorem InputStream.isOpen_of_parse {fs : FileSystem} {fin : String} {g : IqzipCompressionHeader}
    {result : Nat × IqzipCompressionHeader} (h : g.parseHeaderFromFile fs fin = .ok result)
    (s : InputStream) : (s.openFile fs fin).isOpen = true := by
  cases s with
  | opened old pos fail => rfl
  | closed =>
    cases hfile : fs.content fin with
    | none =>
      simp only [IqzipCompressionHeader.parseHeaderFromFile, hfile] at h
      cases h
    | some bytes =>
      simp only [InputStream.openFile, hfile, Option.isSome_some, if_true]
      rfl

/-- What the decompressor makes of its input does not depend on what the output file held, unless
they are the same file: then on the 18 bytes of the header. -/
theorem DecompressorImpl.decompressFile_put (d : DecompressorImpl σ)
    (hout : d.outputStream = .closed) {xs ys : List U8} (hw : fs.writable fout = true)
    (h : fin = fout → xs.take 18 = ys.take 18) :
    d.decompressFile api fuel cell (fs.put fout xs) fin fout
      = d.decompressFile api fuel cell (fs.put fout ys) fin fout := by
  have hparse := d.dCcsdsCipHdr.parseHeaderFromFile_put fs fin fout h
  have hopen : ∀ s : InputStream,
      s.openFile (fs.put fout xs) fin = s.openFile (fs.put fout ys) fin := by
    intro s
    by_cases heq : fin = fout
    · subst heq
      simp only [InputStream.openFile, FileSystem.content_put_self, Option.isSome_some]
    · simp only [InputStream.openFile, FileSystem.content_put_of_ne _ _ heq]
  have hinit : d.decompressInit api (fs.put fout xs) fin fout
      = d.decompressInit api (fs.put fout ys) fin fout := by
    simp only [decompressInit, readHeader, hparse]
    cases hread : d.dCcsdsCipHdr.parseHeaderFromFile (fs.put fout ys) fin with
    | error e => rfl
    | ok result =>
      -- the file that was parsed can be opened
      have hopened : (d.inputStream.openFile (fs.put fout ys) fin).isOpen = true :=
        InputStream.isOpen_of_parse hread _
      simp only [hopen, hopened, hout, Bool.true_eq_false, if_false, OutputStream.openFile,
        FileSystem.writable_put, if_pos hw, FileSystem.put_put, OutputStream.isOpen]
      rfl
  simp only [decompressFile, hinit]

end OldOutput

/-- The argument that names the output file. -/
def Command.outfn : Command → CString
  | .compress _ _ outfn => outfn
  | .decompress _ outfn => outfn

/-- **What the output file held plays no role**: two runs that differ in it alone come out alike,
whatever libaec does. Only when a file is decompressed onto itself do its first 18 bytes, and no
others, matter. -/
theorem tool_oldOutput (P : Process σ τ) (fuel : Nat) {argv : List CString} {cmd : Command}
    (hmain : main argv = some cmd) {fs : FileSystem} (hw : fs.writable (pathOf cmd.outfn) = true)
    {xs ys : List U8}
    (h : ∀ f, cmd = .decompress f f → xs.take 18 = ys.take 18) :
    tool P fuel argv (fs.put (pathOf cmd.outfn) xs)
      = tool P fuel argv (fs.put (pathOf cmd.outfn) ys) := by
  have hrun : cmd.run P fuel (fs.put (pathOf cmd.outfn) xs)
      = cmd.run P fuel (fs.put (pathOf cmd.outfn) ys) := by
    cases cmd with
    | compress cfg infn outfn =>
      have hput := fun zs => IqzipImpl.compressFile_put P.enc fuel P.cell fs (pathOf infn)
        (pathOf outfn) (CompressorImpl.construct P.compressorStorage cfg).toIqzipImpl zs hw
      simp only [Command.run, Command.outfn, hput]
    | decompress infn outfn =>
      have hput := DecompressorImpl.decompressFile_put P.dec fuel P.cell fs (pathOf infn)
        (pathOf outfn) (DecompressorImpl.construct P.decompressorStorage) rfl hw fun heq =>
          h infn (congrArg (Command.decompress infn) (pathOf_injective heq).symm)
      simp only [Command.run, Command.outfn, hput]
  simp only [tool, hmain, hrun]

/-- A file that is compressed onto itself is lost. -/
theorem tool_oldOutput_onto :
    tool copyingProcess 2 [['i', 'q'], ['a'], ['a']] (FileSystem.empty.put (pathOf ['a']) [1, 2])
      = tool copyingProcess 2 [['i', 'q'], ['a'], ['a']]
        (FileSystem.empty.put (pathOf ['a']) [3]) := by
  have hmain : main [['i', 'q'], ['a'], ['a']]
      = some (.compress (commandLineConfig 1 1 1 0 8 1 64) ['a'] ['a']) := by
    rw [main_eq]
    decide
  exact tool_oldOutput copyingProcess 2 hmain rfl nofun

/-! ## Runs that come to their end -/

section Returns

/-- A process exits when its calls come to their end. -/
theorem returns_exit_iff {γ δ : Type} {f : Nat → Option (Outcome γ)} (hf : FuelMono f)
    (g : γ → δ) {fs' : FileSystem} :
    Returns (fun fuel => ((f fuel).map (Outcome.lift g)).map Outcome.exit) (.ok (0, fs'))
      ↔ ∃ status c, Returns f (.ok (status, c, fs')) := by
  rw [(hf.map _).returns_map_iff]
  constructor
  · rintro ⟨o, hrun, hexit⟩
    obtain ⟨o', hcalls, rfl⟩ := hf.returns_map_iff.mp hrun
    match o' with
    | .error e => cases hexit
    | .ok (status, c, _) =>
      cases hexit
      exact ⟨status, c, hcalls⟩
  · rintro ⟨status, c, hcalls⟩
    exact ⟨_, hf.returns_map_iff.mpr ⟨_, hcalls, rfl⟩, rfl⟩

variable {P : Process σ τ} {argv : List CString} {cfg : Config} {infn outfn : CString}
  {fs fs' : FileSystem}

/-- The tool comes to its end when the session of its compressor does. -/
theorem tool_compress_returns_iff (hmain : main argv = some (.compress cfg infn outfn)) :
    Returns (fun fuel => tool P fuel argv fs) (.ok (0, fs'))
      ↔ ∃ status c, Returns (fun fuel =>
          (CompressorImpl.construct P.compressorStorage cfg).compressFile P.enc fuel P.cell fs
            (pathOf infn) (pathOf outfn)) (.ok (status, c, fs')) := by
  simp only [tool, hmain, Command.run]
  exact returns_exit_iff (IqzipImpl.compressFile_fuelMono ..) Sum.inl

/-- The tool comes to its end when the session of its decompressor does. -/
theorem tool_decompress_returns_iff (hmain : main argv = some (.decompress infn outfn)) :
    Returns (fun fuel => tool P fuel argv fs) (.ok (0, fs'))
      ↔ ∃ status c, Returns (fun fuel =>
          (DecompressorImpl.construct P.decompressorStorage).decompressFile P.dec fuel P.cell fs
            (pathOf infn) (pathOf outfn)) (.ok (status, c, fs')) := by
  simp only [tool, hmain, Command.run]
  exact returns_exit_iff (DecompressorImpl.decompressFile_fuelMono ..) Sum.inr

end Returns

/-! ## The configuration -/

/-- The options without a number are 0 or 1. -/
structure Options.Flagged (o : Options) : Prop where
  enablePreprocessing : o.enablePreprocessing = 0 ∨ o.enablePreprocessing = 1
  endianness : o.endianness = 0 ∨ o.endianness = 1
  dataSense : o.dataSense = 0 ∨ o.dataSense = 1
  restrictedCodes : o.restrictedCodes = 0 ∨ o.restrictedCodes = 1

theorem Options.initial_flagged : Options.initial.Flagged :=
  ⟨Or.inr rfl, Or.inr rfl, Or.inr rfl, Or.inl rfl⟩

/-- One option. -/
theorem Options.Flagged.apply {o : Options} (h : o.Flagged) (c : CommandOption) :
    (c.apply o).Flagged := by
  obtain ⟨hpre, hend, hsense, hrestricted⟩ := h
  cases c with
  | noPreprocessing => exact ⟨Or.inl rfl, hend, hsense, hrestricted⟩
  | decompress => exact ⟨hpre, hend, hsense, hrestricted⟩
  | msbFirst => exact ⟨hpre, Or.inl rfl, hsense, hrestricted⟩
  | signedSamples => exact ⟨hpre, hend, Or.inl rfl, hrestricted⟩
  | restrictedCodes => exact ⟨hpre, hend, hsense, Or.inr rfl⟩
  | number p operand => cases p <;> exact ⟨hpre, hend, hsense, hrestricted⟩

/-- All options. -/
theorem Options.flagged_foldl (os : List CommandOption) :
    (os.foldl CommandOption.apply .initial).Flagged :=
  List.foldlRecOn os CommandOption.apply initial_flagged fun _ h c _ => h.apply c

/-- **Legal command lines.** For every argument vector on which the tool compresses, every argument
it passes to `create_compressor` is one that no encoder calls invalid, but for a block size of 0 and
a sample resolution outside 1 to 32. -/
theorem main_legal_iff {argv : List CString} {cfg : Config} {infn outfn : CString}
    (h : main argv = some (.compress cfg infn outfn)) :
    cfg.Legal ↔ cfg.blockSize ≠ 0 ∧ 1 ≤ cfg.sampleResolution ∧ cfg.sampleResolution ≤ 32 := by
  rw [main_eq] at h
  obtain ⟨⟨os, files⟩, -, hcommand⟩ := Option.bind_eq_some_iff.mp h
  obtain ⟨hpre, hend, hsense, hrestricted⟩ := Options.flagged_foldl os
  constructor
  · intro hlegal
    exact ⟨hlegal.blockSize, hlegal.sampleResolution⟩
  · rintro ⟨hsize, hresolution⟩
    match files with
    | [] => cases hcommand
    | [_] => cases hcommand
    | _ :: _ :: _ =>
      simp only [commandOf] at hcommand
      split_ifs at hcommand
      · cases hcommand
      · rw [Option.some.injEq, Command.compress.injEq] at hcommand
        obtain ⟨rfl, -, -⟩ := hcommand
        exact ⟨hpre, Or.inr (Or.inr rfl), Or.inl rfl, hsize, hsense, hresolution,
          ⟨(by decide : (1 : U16) ≤ 1), (by decide : (1 : U16) ≤ 4096)⟩, hrestricted, hend⟩

/-- `iqzip -N -m -s -t -j 48 -n 12 a b` is legal, `iqzip -n 33 a b` is not. -/
theorem main_legal_options :
    (∃ cfg, main [['i', 'q'], ['-', 'N'], ['-', 'm'], ['-', 's'], ['-', 't'], ['-', 'j'],
        ['4', '8'], ['-', 'n'], ['1', '2'], ['a'], ['b']] = some (.compress cfg ['a'] ['b'])
      ∧ cfg.Legal)
      ∧ ∃ cfg, main [['i', 'q'], ['-', 'n'], ['3', '3'], ['a'], ['b']]
        = some (.compress cfg ['a'] ['b']) ∧ ¬ cfg.Legal := by
  have hlegal : main [['i', 'q'], ['-', 'N'], ['-', 'm'], ['-', 's'], ['-', 't'], ['-', 'j'],
      ['4', '8'], ['-', 'n'], ['1', '2'], ['a'], ['b']]
      = some (.compress (commandLineConfig 0 0 0 1 12 1 48) ['a'] ['b']) := by
    rw [main_eq]
    decide
  have hwide : main [['i', 'q'], ['-', 'n'], ['3', '3'], ['a'], ['b']]
      = some (.compress (commandLineConfig 1 1 1 0 33 1 64) ['a'] ['b']) := by
    rw [main_eq]
    decide
  refine ⟨⟨_, hlegal, (main_legal_iff hlegal).mpr (by decide)⟩, _, hwide, ?_⟩
  rw [main_legal_iff hwide]
  decide

/-! ## The round trip -/

section RoundTrip

variable {P P' : Process σ τ} {argv argv' : List CString} {cfg : Config}
  {infn midfn outfn : CString} {fs : FileSystem} {input coded payload : List U8} {s₀ : σ} {t₀ : τ}
  {early decode : List U8 → List U8}

/-- Two runs of the tool, each in a process of its own, that leave in `outfn` what `input` was. -/
def ToolRestores (P P' : Process σ τ) (argv argv' : List CString) (fs : FileSystem)
    (outfn : CString) (input : List U8) : Prop :=
  ∃ fs' fs'', Returns (fun fuel => tool P fuel argv fs) (.ok (0, fs'))
    ∧ Returns (fun fuel => tool P' fuel argv' fs') (.ok (0, fs''))
    ∧ fs''.content (pathOf outfn) = some input

/-- They are the sessions of two new objects. -/
theorem toolRestores_iff (hcompress : main argv = some (.compress cfg infn midfn))
    (hdecompress : main argv' = some (.decompress midfn outfn)) :
    ToolRestores P P' argv argv' fs outfn input
      ↔ Restores P.enc P'.dec P.compressorStorage P'.decompressorStorage cfg P.cell P'.cell fs
        (pathOf infn) (pathOf midfn) (pathOf outfn) input := by
  unfold ToolRestores Restores
  simp only [tool_compress_returns_iff hcompress, tool_decompress_returns_iff hdecompress]

/-- **Compressing and decompressing with the tool.** For every two command lines of which the second
decompresses what the first compressed, over header memory that starts as zeros, a configuration
that comes back in front of its payload, an input of whole samples, and libaec as an encoder and a
decoder that agree: both runs exit with 0 and the input is in the last file exactly when it fits in
a chunk if its samples take three bytes, it and what the encoder makes of it before the flush have
fewer than `2^31` bytes, and nothing was added to it or cut off, unless it was cut harmlessly. -/
theorem tool_roundTrip_iff (hcompress : main argv = some (.compress cfg infn midfn))
    (hdecompress : main argv' = some (.decompress midfn outfn)) (hmid : infn ≠ midfn)
    (hout : midfn ≠ outfn) (hzero : P.compressorStorage.header = .zero)
    (hresolution : 1 ≤ cfg.sampleResolution ∧ cfg.sampleResolution ≤ 32)
    (recoverable : Recoverable cfg payload)
    (hfile : fs.content (pathOf infn) = some input) (hw : fs.writable (pathOf midfn) = true)
    (hw' : fs.writable (pathOf outfn) = true)
    (hsamples : (aecParamsOf cfg).bytesPerSample ∣ input.length)
    (hinit : P.enc.init (aecParamsOf cfg) = (aecOk, some s₀))
    (hinit' : P'.dec.init (aecParamsOf cfg) = (aecOk, some t₀))
    (encodes : Encodes P.enc s₀ input (aecParamsOf cfg).bytesPerSample early coded)
    (hpayload : payload = coded.take ((early input).length + chunk))
    (decodes : Decodes P'.dec t₀ payload (aecParamsOf cfg).bytesPerSample decode)
    (padded : PaddedTo cfg.blockSize.toNat (aecParamsOf cfg).bytesPerSample input (decode coded))
    (hlen : 18 ≤ ((zeroedHeader cfg).headerBytes ++ payload).length) :
    ToolRestores P P' argv argv' fs outfn input
      ↔ ¬ ((aecParamsOf cfg).bytesPerSample = 3 ∧ chunk ≤ input.length)
        ∧ input.length < 2 ^ 31 ∧ (early input).length < 2 ^ 31
        ∧ (coded.length ≤ (early input).length + chunk
            ∧ cfg.blockSize.toNat ∣ input.length / (aecParamsOf cfg).bytesPerSample
          ∨ CutHarmlessly input coded payload early decode) := by
  have hpos : cfg.blockSize ≠ 0 := by
    obtain ⟨k, -, -, hk⟩ := recoverable.blockSize
    rintro hb
    rw [hb] at hk
    exact absurd hk.symm (Nat.two_pow_pos k).ne'
  have legal : cfg.Legal := (main_legal_iff hcompress).mpr ⟨hpos, hresolution⟩
  -- a recoverable configuration is parsed to its parameters, and the parser stops at the payload
  obtain ⟨hstop, hparams⟩ := (parsed_recovers_iff legal
    (DecompressorImpl.construct P'.decompressorStorage).dCcsdsCipHdr payload).mpr recoverable
  have hsame : IqzipCompressionHeader.construct P.compressorStorage.header cfg
      = zeroedHeader cfg := by rw [hzero, zeroedHeader]
  rw [toolRestores_iff hcompress hdecompress]
  refine restores_iff P.cell P'.cell hfile (fun heq => hmid (pathOf_injective heq))
    (fun heq => hout (pathOf_injective heq)) hw hw' hsamples hinit hinit' encodes hpayload decodes
    padded ?_ ?_ hparams
  · rw [hsame]
    exact hlen
  · rw [hsame]
    exact Prod.ext hstop rfl

end RoundTrip

/-- A block of the default size, from the largest value to zero and back. -/
def swings : List U8 := (List.replicate 32 [0xff, 0x00]).flatten

/-- Its code: the block is not compressed, so behind three bits stand the first sample and 63 mapped
differences, all of them 255. -/
def swingsCoded : List U8 := List.replicate 64 0xff ++ [0xe0]

/-- The code of `swings`. -/
def swingsCode (xs : List U8) : List U8 := if xs = swings then swingsCoded else []

/-- The decoder of `swings`. -/
def swingsDecode (xs : List U8) : List U8 := decodeOne swingsCoded swings xs

/-- A process that meets no other block. -/
def swingsProcess : Process (Given U8) (Given U8) :=
  { enc := .ofFunctions (fun _ => []) swingsCode
    dec := .ofFunctions swingsDecode swingsDecode
    compressorStorage := zeroStorage _
    decompressorStorage := zeroStorage _
    cell := fun _ => 0 }

/-- The block comes back with the default options. -/
theorem tool_roundTrip_default :
    ToolRestores swingsProcess swingsProcess [['i', 'q'], ['a'], ['b']]
      [['i', 'q'], ['-', 'd'], ['b'], ['c']] (FileSystem.empty.put (pathOf ['a']) swings) ['c']
      swings := by
  have hdecompress : main [['i', 'q'], ['-', 'd'], ['b'], ['c']]
      = some (.decompress ['b'] ['c']) := by
    rw [main_eq]
    decide
  have hwidth : (aecParamsOf (commandLineConfig 1 1 1 0 8 1 64)).bytesPerSample = 1 := by decide
  have hencodes := @encodes_atFlush swingsCode swings (by decide)
  have hdecodes := decodes_one swingsCoded swings swingsCoded
  have hpadded : PaddedTo 64 1 swings (swingsDecode swingsCoded) := ⟨0, by decide, by decide, nofun⟩
  have hpayload : swingsCoded = (swingsCode swings).take (0 + chunk) := by decide
  rw [← hwidth] at hencodes hdecodes hpadded
  refine (tool_roundTrip_iff main_default hdecompress (by decide) (by decide) rfl (by decide)
    ⟨⟨6, by decide, by decide, by decide⟩, by decide, rfl, by decide⟩
    (FileSystem.content_put_self ..) rfl rfl (by rw [hwidth]; exact Nat.one_dvd _) rfl rfl hencodes
    hpayload hdecodes hpadded (by decide)).mpr ?_
  rw [hwidth]
  exact ⟨by decide, by decide, by decide, Or.inl ⟨by decide, by decide⟩⟩

end IQzip
