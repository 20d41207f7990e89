import IQzip.Decompressor
import IQzip.StreamAgreement

/-! # What configures the decoder

`decompress_init` takes the coder parameters from the 18 bytes the parser copies, whatever segments
the writer emitted. A header of 18 bytes covers them. A shorter one does not: the bits of the absent
segments are read from the payload, and one of them, the endianness, is a coder flag. -/

namespace IQzip

open Library IqzipCompressionHeader

variable {σ : Type}

/-- **What `decompress_init` sets**, on any object and for any file of at least 18 bytes. -/
theorem DecompressorImpl.decompressInit_setup (api : Aec σ) (c : DecompressorImpl σ)
    {fs : FileSystem} {fin : String} (fout : String) {bytes : List U8}
    (hfile : fs.content fin = some bytes) (hlen : maxHeaderSize ≤ bytes.length) :
    ∃ status c' fs', c.decompressInit api fs fin fout = .ok (status, c', fs')
      ∧ c'.dStrm.toAecParams = aecParamsOf
          (c.dCcsdsCipHdr.parseBuffer (bytes.take maxHeaderSize)).2.decodedConfig
      ∧ c'.dIqzipHeaderSize = (c.dCcsdsCipHdr.parseBuffer (bytes.take maxHeaderSize)).1 := by
  have hread := parseHeaderFromFile_eq_ok c.dCcsdsCipHdr hfile hlen
  unfold decompressInit readHeader
  simp only [hread]
  -- both `open` calls may fail; the parameters are set before them
  split_ifs
  · exact ⟨_, _, _, rfl, rfl, rfl⟩
  · exact ⟨_, _, _, rfl, rfl, rfl⟩
  · exact ⟨_, _, _, rfl, rfl, rfl⟩

/-- `decompress_init` on a file with `xs` and on one with `ys` sets the same coder parameters and
the same header size. -/
def SameSetup (api : Aec σ) (c : DecompressorImpl σ) (fs : FileSystem) (fin fout : String)
    (xs ys : List U8) : Prop :=
  ∃ status c' fs', c.decompressInit api (fs.put fin xs) fin fout = .ok (status, c', fs')
    ∧ ∃ status c'' fs'', c.decompressInit api (fs.put fin ys) fin fout = .ok (status, c'', fs'')
    ∧ c'.dStrm.toAecParams = c''.dStrm.toAecParams ∧ c'.dIqzipHeaderSize = c''.dIqzipHeaderSize

section Setup

variable {api : Aec σ} {c : DecompressorImpl σ} {fs : FileSystem} {fin fout : String}
  {xs ys : List U8}

/-- Whether the setup is the same is a matter of the parsed bytes. -/
theorem sameSetup_iff (hx : maxHeaderSize ≤ xs.length) (hy : maxHeaderSize ≤ ys.length) :
    SameSetup api c fs fin fout xs ys
      ↔ aecParamsOf (c.dCcsdsCipHdr.parseBuffer (xs.take maxHeaderSize)).2.decodedConfig
            = aecParamsOf (c.dCcsdsCipHdr.parseBuffer (ys.take maxHeaderSize)).2.decodedConfig
          ∧ (c.dCcsdsCipHdr.parseBuffer (xs.take maxHeaderSize)).1
            = (c.dCcsdsCipHdr.parseBuffer (ys.take maxHeaderSize)).1 := by
  obtain ⟨s, d, gs, hd, hparams, hsize⟩ := c.decompressInit_setup api fout
    (fs.content_put_self fin xs) hx
  obtain ⟨t, e, hs, he, hparams', hsize'⟩ := c.decompressInit_setup api fout
    (fs.content_put_self fin ys) hy
  rw [← hparams, ← hparams', ← hsize, ← hsize']
  constructor
  · rintro ⟨s', d', gs', hd', t', e', hs', he', h⟩
    rw [hd] at hd'
    rw [he] at he'
    cases hd'
    cases he'
    exact h
  · intro h
    exact ⟨s, d, gs, hd, t, e, hs, he, h⟩

end Setup

/-! ## The endianness flag -/

/-- `AEC_DATA_MSB` is set when the endianness bit is not. -/
theorem flagsOf_getLsbD_two (cfg : Config) :
    (flagsOf cfg).getLsbD 2 = !cfg.endianness.getLsbD 0 := by
  simp [flagsOf, aecData3Byte, aecNotEnforce, aecDataSigned, aecDataMsb]

/-- Both endianness codes decode to themselves. -/
theorem decodeIqzipHeaderEndianess_eq (h : IqzipCompressionHeader) :
    h.decodeIqzipHeaderEndianess = h.dIqzipHeader.endianness.setWidth 16 := by
  unfold decodeIqzipHeaderEndianess
  generalize h.dIqzipHeader.endianness = e
  revert e
  decide

/-- A parsed endianness is the top bit of the last byte the parser copies. -/
theorem parsed_endianness (g : IqzipCompressionHeader) (buffer : List U8) :
    (g.parseBuffer buffer).2.decodedConfig.endianness.getLsbD 0
      = (buffer.getD 17 0).getLsbD 7 := by
  obtain ⟨b, hb⟩ := parseBuffer_snd g buffer
  have hfield : (g.parseBuffer buffer).2.dIqzipHeader.endianness
      = (buffer.getD 17 0 ++ buffer.getD 16 0 : BitVec 16).extractLsb' 15 1 := by
    rw [hb]
    rfl
  have htop : ((buffer.getD 17 0 ++ buffer.getD 16 0 : BitVec 16).extractLsb' 15 1).getLsbD 0
      = (buffer.getD 17 0).getLsbD 7 := by
    rw [BitVec.getLsbD_extractLsb', BitVec.getLsbD_append]
    simp
  rw [← htop, ← hfield]
  simp [decodedConfig, decodeIqzipHeaderEndianess_eq]

/-! ## The leak -/

/-- A payload that sets no bit. -/
def zeroPayload : List U8 := [0, 0, 0, 0]

/-- A payload that sets the top bit of the second and the fourth byte. -/
def markedPayload : List U8 := [0, 0x80, 0, 0x80]

section Leak

variable (storage : HeaderStorage) (cfg : Config)

/-- Behind a header of 14 or 16 bytes, the last byte the parser copies is one of the payload. -/
theorem last_parsed_byte (hsmall : ¬ cfg.blockSize > 64) (P : List U8) :
    ∃ i, (i = 1 ∨ i = 3) ∧
      (((construct storage cfg).headerBytes ++ P).take maxHeaderSize).getD 17 0 = P.getD i 0 := by
  have hlen := length_construct_headerBytes storage cfg
  rw [if_neg hsmall, Nat.add_zero] at hlen
  have hread : (((construct storage cfg).headerBytes ++ P).take maxHeaderSize).getD 17 0
      = P.getD (17 - (construct storage cfg).headerBytes.length) 0 := by
    have hle : (construct storage cfg).headerBytes.length ≤ 17 := by
      rw [hlen]
      split <;> decide
    rw [List.getD_eq_getElem?_getD, List.getElem?_take_of_lt (by decide),
      List.getElem?_append_right hle, List.getD_eq_getElem?_getD]
  refine ⟨_, ?_, hread⟩
  rw [hlen]
  split <;> decide

/-- **Only a header of 18 bytes keeps the payload out of the configuration.** For every
configuration, header storage and decompressor: all payloads of four bytes or more leave
`decompress_init` with the same coder parameters and header size exactly when the block size is
over 64. -/
theorem sameSetup_iff_blockSize (api : Aec σ) (c : DecompressorImpl σ) (fs : FileSystem)
    (fin fout : String) :
    (∀ P Q : List U8, 4 ≤ P.length → 4 ≤ Q.length →
        SameSetup api c fs fin fout ((construct storage cfg).headerBytes ++ P)
          ((construct storage cfg).headerBytes ++ Q))
      ↔ cfg.blockSize > 64 := by
  have hlen := length_construct_headerBytes storage cfg
  have hfile : ∀ P : List U8, 4 ≤ P.length →
      maxHeaderSize ≤ ((construct storage cfg).headerBytes ++ P).length := by
    intro P hP
    have : maxHeaderSize = 14 + 4 := rfl
    rw [List.length_append, hlen]
    omega
  constructor
  · intro h
    by_contra hsmall
    have hsame := (sameSetup_iff (hfile _ (by decide)) (hfile _ (by decide))).mp
      (h zeroPayload markedPayload (by decide) (by decide))
    have hflag := congrArg (fun p : AecParams => p.flags.getLsbD 2) hsame.1
    obtain ⟨i, hi, hzero⟩ := last_parsed_byte storage cfg hsmall zeroPayload
    obtain ⟨j, hj, hmarked⟩ := last_parsed_byte storage cfg hsmall markedPayload
    simp only [aecParamsOf, flagsOf_getLsbD_two, parsed_endianness, hzero, hmarked] at hflag
    -- either index holds the zero byte in one payload and the marked byte in the other
    rcases hi with rfl | rfl <;> rcases hj with rfl | rfl <;> exact absurd hflag (by decide)
  · intro hbig P Q hP hQ
    have hseg : cfg.blockSize > 16 ∨ cfg.restrictedCodes ≠ 0 := Or.inl (by bv_omega)
    rw [if_pos hbig, if_pos hseg] at hlen
    -- the 18 bytes the parser copies are the header and nothing else
    have htake : ∀ P : List U8, ((construct storage cfg).headerBytes ++ P).take maxHeaderSize
        = (construct storage cfg).headerBytes := fun _ => List.take_left' hlen
    rw [sameSetup_iff (hfile P hP) (hfile Q hQ), htake, htake]
    exact ⟨rfl, rfl⟩

end Leak

/-- **The payload sets the endianness flag.** At the tool's default configuration, whose header has
16 bytes, the two payloads give different coder parameters. -/
theorem setup_leak_commandLine :
    (commandLineConfig 1 1 1 0 8 1 64).Legal
      ∧ ¬ SameSetup (.ofFunctions id id) (DecompressorImpl.construct (zeroStorage _))
        FileSystem.empty "in.iqz" "out"
        ((zeroedHeader (commandLineConfig 1 1 1 0 8 1 64)).headerBytes ++ zeroPayload)
        ((zeroedHeader (commandLineConfig 1 1 1 0 8 1 64)).headerBytes ++ markedPayload) := by
  refine ⟨by decide, ?_⟩
  rw [sameSetup_iff (by decide) (by decide)]
  rintro ⟨hparams, -⟩
  have hflag := congrArg AecParams.flags hparams
  revert hflag
  decide

end IQzip
