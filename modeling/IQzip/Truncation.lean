import IQzip.Tool

/-! # Archives that are cut short

A decompressor learns the end of its input from the end of the file. An archive that lost its tail
is decompressed without complaint, up to the last sample that its bytes determine;
`tool_cutShort` says so for every place where it may have been cut. -/

namespace IQzip

open Library

variable {σ τ : Type}

/-- A decoder of a payload decodes every beginning of it. -/
theorem Decodes.of_prefix {api : Aec τ} {t₀ : τ} {payload whole : List U8} {width : Nat}
    {decode : List U8 → List U8} (decodes : Decodes api t₀ whole width decode)
    (hpre : payload <+: whole) : Decodes api t₀ payload width decode where
  paced := decodes.paced.of_prefix hpre
  accepts := decodes.accepts.of_prefix hpre

/-- A cut behind the header cuts the payload. -/
theorem drop_take_prefix (bytes : List U8) (n size : Nat) :
    (bytes.take n).drop size <+: bytes.drop size :=
  (List.take_prefix n bytes).drop size

section CutShort

variable {P : Process σ τ} {argv : List CString} {infn outfn : CString} {fs fs' : FileSystem}
  {bytes : List U8} {size : Nat} {hdr : IqzipCompressionHeader} {t₀ : τ}
  {decode : List U8 → List U8}

/-- The parser reads 18 bytes whatever the header has, and a file with fewer stops the tool. -/
theorem tool_of_short (fuel : Nat) (hmain : main argv = some (.decompress infn outfn))
    (hfile : fs.content (pathOf infn) = some bytes) (hlen : bytes.length < 18) :
    tool P fuel argv fs = some (.error (.raised ⟨"File reading error"⟩)) := by
  have hshort : (bytes.take IqzipCompressionHeader.maxHeaderSize).length
      ≠ IqzipCompressionHeader.maxHeaderSize := by
    rw [List.length_take]
    exact (Nat.lt_of_le_of_lt (Nat.min_le_right ..) hlen).ne
  simp only [tool, hmain, Command.run, DecompressorImpl.decompressFile,
    DecompressorImpl.decompressInit, DecompressorImpl.readHeader,
    IqzipCompressionHeader.parseHeaderFromFile, hfile, if_pos hshort]
  rfl

/-- **An archive that was cut short.** An archive of at least 18 bytes that the tool decompresses,
with a decoder that is documented to decode it. Cut to fewer than 18 bytes, the tool raises. Cut
anywhere else, it exits with 0 and its output is a beginning of what it was. -/
theorem tool_cutShort (hmain : main argv = some (.decompress infn outfn)) (hne : infn ≠ outfn)
    (hw : fs.writable (pathOf outfn) = true) (hlen : 18 ≤ bytes.length)
    (hparse : (DecompressorImpl.construct P.decompressorStorage).dCcsdsCipHdr.parseBuffer
      (bytes.take 18) = (size, hdr))
    (hinit : (P.dec.init (aecParamsOf hdr.decodedConfig)).2 = some t₀)
    (decodes : Decodes P.dec t₀ (bytes.drop size) (aecParamsOf hdr.decodedConfig).bytesPerSample
      decode)
    (hrun : Returns (fun fuel => tool P fuel argv (fs.put (pathOf infn) bytes)) (.ok (0, fs')))
    (n : Nat) :
    (n < 18 → ∀ fuel, tool P fuel argv (fs.put (pathOf infn) (bytes.take n))
        = some (.error (.raised ⟨"File reading error"⟩)))
      ∧ (18 ≤ n → ∃ part, part <+: fs'.bytesAt (pathOf outfn)
        ∧ Returns (fun fuel => tool P fuel argv (fs.put (pathOf infn) (bytes.take n)))
          (.ok (0, (fs.put (pathOf infn) (bytes.take n)).put (pathOf outfn) part))) := by
  have hwidth := (aecParamsOf hdr.decodedConfig).bytesPerSample_bounds
  have hbound : (aecParamsOf hdr.decodedConfig).bytesPerSample ≤ chunk :=
    Nat.le_trans hwidth.2 (by decide)
  have hpath : pathOf infn ≠ pathOf outfn := fun heq => hne (pathOf_injective heq)
  -- of any 18 bytes and more that start alike, the tool makes what the decoder does
  have hsession : ∀ part, 18 ≤ part.length → part.take 18 = bytes.take 18 →
      part.drop size <+: bytes.drop size → ∀ files,
      (Returns (fun fuel => tool P fuel argv (fs.put (pathOf infn) part)) (.ok (0, files)) ↔
        (decode (part.drop size)).length < 2 ^ 31
          ∧ files = (fs.put (pathOf infn) part).put (pathOf outfn) (decode (part.drop size))) := by
    intro part hlong hfirst hpre files
    rw [tool_decompress_returns_iff hmain]
    exact decompressFile_iff P.cell rfl rfl (FileSystem.content_put_self ..) hlong hpath hw
      (by rw [← hparse, ← hfirst]; rfl) hinit (decodes.of_prefix hpre) hwidth.1 hbound
  obtain ⟨hsmall, rfl⟩ := (hsession bytes hlen rfl (List.prefix_refl _) fs').mp hrun
  constructor
  · intro hn fuel
    refine tool_of_short fuel hmain (FileSystem.content_put_self ..) ?_
    exact Nat.lt_of_le_of_lt (List.length_take_le n bytes) hn
  · intro hn
    have hcut := drop_take_prefix bytes n size
    have hprefix := decodes.paced.mono hcut
    refine ⟨decode ((bytes.take n).drop size), ?_, ?_⟩
    · rw [FileSystem.bytesAt_put_self]
      exact hprefix
    · refine (hsession (bytes.take n) ?_ ?_ hcut _).mpr
        ⟨Nat.lt_of_le_of_lt hprefix.length_le hsmall, rfl⟩
      · rw [List.length_take]
        exact Nat.le_min.mpr ⟨hn, hlen⟩
      · rw [List.take_take, Nat.min_eq_left hn]

end CutShort

/-- The archive of a block, wherever it was cut. -/
theorem tool_cutShort_swings :
    let archive := (zeroedHeader (commandLineConfig 1 1 1 0 8 1 64)).headerBytes ++ swingsCoded
    let run := fun bytes : List U8 => fun fuel => tool swingsProcess fuel
      [['i', 'q'], ['-', 'd'], ['b'], ['c']] (FileSystem.empty.put (pathOf ['b']) bytes)
    ∃ fs', Returns (run archive) (.ok (0, fs'))
      ∧ ∀ n, 18 ≤ n → ∃ part, part <+: fs'.bytesAt (pathOf ['c'])
        ∧ Returns (run (archive.take n)) (.ok (0, (FileSystem.empty.put (pathOf ['b'])
          (archive.take n)).put (pathOf ['c']) part)) := by
  intro archive run
  have hmain : main [['i', 'q'], ['-', 'd'], ['b'], ['c']] = some (.decompress ['b'] ['c']) := by
    rw [main_eq]
    decide
  have hne : ['b'] ≠ ['c'] := by decide
  have hlen : 18 ≤ archive.length := by decide
  let parsed := (DecompressorImpl.construct
    swingsProcess.decompressorStorage).dCcsdsCipHdr.parseBuffer (archive.take 18)
  have hsize : parsed.1 = 16 := by decide
  have hparse : parsed = (16, parsed.2) := Prod.ext hsize rfl
  have hinit : (swingsProcess.dec.init (aecParamsOf parsed.2.decodedConfig)).2
      = some Given.start := rfl
  have hwidth : (aecParamsOf parsed.2.decodedConfig).bytesPerSample = 1 := by decide
  have hdecodes := decodes_one swingsCoded swings (archive.drop 16)
  have hfile := FileSystem.content_put_self .empty (pathOf ['b']) archive
  have hrun := (tool_decompress_returns_iff hmain).mpr
    ((decompressFile_iff swingsProcess.cell rfl rfl hfile hlen
      (fun heq => hne (pathOf_injective heq)) rfl hparse hinit hdecodes Nat.one_pos
      (by decide)).mpr ⟨by decide, rfl⟩)
  rw [← hwidth] at hdecodes
  exact ⟨_, hrun, fun n hn =>
    (tool_cutShort hmain hne rfl hlen hparse hinit hdecodes hrun n).2 hn⟩

end IQzip
