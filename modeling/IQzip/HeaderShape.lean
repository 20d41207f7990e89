import IQzip.CompressionHeader
import IQzip.Library.BitField

/-! # Header length and block size: the writer against the parser

The writer chooses the optional segments from `d_block_size` and `d_restricted_codes`; the parser
works the length out again from the block-size codes of two subfields. This file computes every
block-size code of a constructed header, compares the two decisions for all block sizes, and says
exactly when the length and the block size survive.

* `decodePreprocessorBlockSize_construct`, `decodeExtendedParametersBlockSize_construct`,
  `decodeIqzipHeaderBlockSize_construct`: the three codes of a header built on zeroed storage.
* `parse_length_iff`: the parser returns the length the writer emitted.
* `parse_blockSize_iff`: `decode_block_size` returns the block size that was encoded. -/

namespace IQzip

/-- The configuration that `main` of the command-line tool hands to `create_compressor`: its seven
variables, and constants for the rest. -/
def commandLineConfig (enablePreprocessing endianness dataSense restrictedCodes sampleResolution
    referenceSampleInterval : U8) (blockSize : U16) : Config :=
  { version := 0x0
    type := 0x1
    secHdrFlag := 0x1
    apid := 0x7FF
    sequenceFlags := 0x0
    packetSequenceCount := 0xdffe
    packetDataLength := 0x7efe
    groupingDataLength := 0xffff
    compressionTechId := 0x1
    referenceSampleInterval := referenceSampleInterval
    preprocessorStatus := enablePreprocessing
    predictorType := 0x7
    mapperType := 0x0
    blockSize := blockSize
    dataSense := dataSense
    sampleResolution := sampleResolution
    cdsPerPacket := 1
    restrictedCodes := restrictedCodes
    endianness := endianness }

/-- The header of a configuration, built on zeroed storage. -/
def zeroedHeader (cfg : Config) : IqzipCompressionHeader :=
  IqzipCompressionHeader.construct .zero cfg

/-! ## The block-size codes of a constructed header -/

namespace CompressionIdentificationPacket

/-- The block-size field of the second Preprocessor byte. -/
def blockSizeField : BitField 8 := ⟨6, 2, by decide⟩

/-- The data-sense field of the second Preprocessor byte. -/
def dataSenseField : BitField 8 := ⟨5, 1, by decide⟩

/-- The sample-resolution field of the second Preprocessor byte. -/
def sampleResolutionField : BitField 8 := ⟨0, 5, by decide⟩

/-- The data sense is written inside its field. -/
theorem dataSenseBits_eq_place (dataSense : U8) :
    dataSenseBits dataSense = dataSenseField.place (if dataSense = 1 then 1 else 0) := by
  unfold dataSenseBits
  split <;> rfl

/-- The sample resolution is written inside its field. -/
theorem sampleResolutionBits_eq_place (resolution : U8) :
    sampleResolutionBits resolution
      = sampleResolutionField.place
          (if 1 ≤ resolution ∧ resolution ≤ 32 then resolution else 0) := by
  unfold sampleResolutionBits
  split
  · simp [BitField.place, sampleResolutionField, BitField.mask]
  · rfl

/-- The two-bit code `encode_preprocessor_block_size` writes for `size`. -/
def preprocessorBlockSizeCode (size : U16) : U8 :=
  if size = 0 ∨ size = 8 then 0
  else if size = 16 then 1
  else if size = 32 ∨ size = 64 then 2
  else 3

/-- The code is written inside its field. -/
theorem preprocessorBlockSizeBits_eq_place (size : U16) :
    preprocessorBlockSizeBits size = blockSizeField.place (preprocessorBlockSizeCode size) := by
  unfold preprocessorBlockSizeBits preprocessorBlockSizeCode
  split_ifs <;> rfl

/-- The code has two bits. -/
theorem preprocessorBlockSizeCode_lt (size : U16) :
    (preprocessorBlockSizeCode size).toNat < 2 ^ 2 := by
  unfold preprocessorBlockSizeCode
  split_ifs <;> decide

/-- **The block-size code is read back**, whatever the other fields of its byte hold. -/
theorem blockSizeField_get (size : U16) (dataSense resolution : U8) :
    blockSizeField.get (preprocessorBlockSizeBits size
        ||| (dataSenseBits dataSense ||| sampleResolutionBits resolution))
      = preprocessorBlockSizeCode size := by
  -- both other fields are disjoint from this one, so they read as zero
  rw [preprocessorBlockSizeBits_eq_place, dataSenseBits_eq_place, sampleResolutionBits_eq_place,
    BitField.get_or, BitField.get_or, BitField.get_place _ (preprocessorBlockSizeCode_lt size),
    BitField.get_place_of_disjoint (by decide), BitField.get_place_of_disjoint (by decide)]
  simp

/-- What `decode_preprocessor_block_size` makes of the code written for `size`. -/
def preprocessorBlockSizeOf (size : U16) : U16 :=
  if size = 0 ∨ size = 8 then 8 else if size = 16 then 16 else 0

/-- What `decode_extended_parameters_block_size` makes of the code written for `size`. -/
def extendedBlockSizeOf (size : U16) : U16 :=
  if size = 0 ∨ size = 8 then 8
  else if size = 16 then 16
  else if size = 32 then 32
  else if size = 64 then 64
  else 0

/-- The decoder of the Preprocessor code, on the byte a setter wrote. -/
theorem decodePreprocessorBlockSize_of_byte {c : CompressionIdentificationPacket} {size : U16}
    {dataSense resolution : U8}
    (hbyte : c.dSourceDataVariable.preprocessor.get 1 = preprocessorBlockSizeBits size
        ||| (dataSenseBits dataSense ||| sampleResolutionBits resolution)) :
    c.decodePreprocessorBlockSize = preprocessorBlockSizeOf size := by
  have hcode : (c.dSourceDataVariable.preprocessor.get 1 &&& preprocessorBlockSizeMask) >>> 6
      = preprocessorBlockSizeCode size := by
    rw [hbyte, ← blockSizeField_get size dataSense resolution]
    rfl
  unfold decodePreprocessorBlockSize
  simp only [hcode, preprocessorBlockSizeCode, preprocessorBlockSizeOf]
  -- the setter's table against the decoder's, size by size
  by_cases h8 : size = 0 ∨ size = 8
  · simp only [if_pos h8]
    rfl
  by_cases h16 : size = 16
  · simp only [if_neg h8, if_pos h16]
    rfl
  simp only [if_neg h8, if_neg h16]
  by_cases h64 : size = 32 ∨ size = 64
  · rw [if_pos h64]
    rfl
  · rw [if_neg h64]
    rfl

/-- The decoder of the Extended Parameters code, on the byte a setter wrote. -/
theorem decodeExtendedParametersBlockSize_of_byte {c : CompressionIdentificationPacket}
    {size : U16}
    (hbyte : c.dSourceDataVariable.extendedParameters.get 0 = 0xc0 ||| extendedBlockSizeBits size) :
    c.decodeExtendedParametersBlockSize = extendedBlockSizeOf size := by
  unfold decodeExtendedParametersBlockSize
  simp only [hbyte, extendedBlockSizeBits, extendedBlockSizeOf]
  -- the setter's table against the decoder's, size by size
  by_cases h8 : size = 0 ∨ size = 8
  · simp only [if_pos h8]
    rfl
  by_cases h16 : size = 16
  · simp only [if_neg h8, if_pos h16]
    rfl
  by_cases h32 : size = 32
  · simp only [if_neg h8, if_neg h16, if_pos h32]
    rfl
  by_cases h64 : size = 64
  · simp only [if_neg h8, if_neg h16, if_neg h32, if_pos h64]
    rfl
  simp only [if_neg h8, if_neg h16, if_neg h32, if_neg h64]
  rfl

end CompressionIdentificationPacket

open CompressionIdentificationPacket IqzipCompressionHeader

section Zeroed

variable {cfg : Config}

/-- The Preprocessor code of a header built on zeroed storage. -/
theorem decodePreprocessorBlockSize_construct (legal : cfg.Legal) :
    (zeroedHeader cfg).dCip.decodePreprocessorBlockSize
      = preprocessorBlockSizeOf cfg.blockSize := by
  have hbyte : (zeroedHeader cfg).dCip.dSourceDataVariable.preprocessor.get 1
      = preprocessorBlockSizeBits cfg.blockSize
        ||| (dataSenseBits cfg.dataSense ||| sampleResolutionBits cfg.sampleResolution) := by
    rw [zeroedHeader, construct_sourceDataVariable _ _ legal.cdsPerPacket]
    simp [HeaderStorage.zero]
  exact decodePreprocessorBlockSize_of_byte hbyte

/-- The Extended Parameters code of a constructed header. -/
theorem decodeExtendedParametersBlockSize_construct (legal : cfg.Legal) :
    (zeroedHeader cfg).dCip.decodeExtendedParametersBlockSize
      = extendedBlockSizeOf cfg.blockSize := by
  apply decodeExtendedParametersBlockSize_of_byte
  rw [zeroedHeader, construct_sourceDataVariable _ _ legal.cdsPerPacket]
  rfl

end Zeroed

/-! ## The header in front of a payload -/

section Payload

variable {cfg : Config} (legal : cfg.Legal) (g : IqzipCompressionHeader) (payload : List U8)

/-- The 18 bytes the parser reads from a file that starts with the header of `cfg`. -/
def firstBytes (cfg : Config) (payload : List U8) : List U8 :=
  ((zeroedHeader cfg).headerBytes ++ payload).take maxHeaderSize

/-- The parser always gets the mandatory segments, and four bytes of what follows them. -/
theorem firstBytes_eq :
    firstBytes cfg payload
      = (zeroedHeader cfg).mandatoryBytes
        ++ ((zeroedHeader cfg).optionalBytes ++ payload).take 4 := by
  have hlen : (zeroedHeader cfg).mandatoryBytes.length ≤ maxHeaderSize := by
    rw [length_mandatoryBytes]
    decide
  rw [firstBytes, headerBytes_eq, List.append_assoc, List.take_append, List.take_of_length_le hlen,
    length_mandatoryBytes]
  rfl

/-- Four bytes of a two-byte segment and what follows it. -/
theorem take_four_append (v : Vector U8 2) (rest : List U8) :
    (v.toList ++ rest).take 4 = v.toList ++ rest.take 2 := by
  rw [List.take_append, List.take_of_length_le (by simp)]
  simp

/-- The extension comes from the header when the writer emits it. -/
theorem parsed_iqzipHeader (hseg : cfg.blockSize > 64) :
    (g.setFromBuffer (firstBytes cfg payload)).dIqzipHeader
      = (zeroedHeader cfg).dIqzipHeader := by
  have hemit : (zeroedHeader cfg).dBlockSize > 16 := by
    simp only [zeroedHeader, construct_dBlockSize]
    bv_omega
  have hext : (zeroedHeader cfg).dBlockSize > 64 := by
    simpa only [zeroedHeader, construct_dBlockSize] using hseg
  have hrest : ((zeroedHeader cfg).optionalBytes ++ payload).take 4
      = (zeroedHeader cfg).dCip.dSourceDataVariable.extendedParameters.toList
        ++ ((zeroedHeader cfg).dIqzipHeader.toBytes ++ []) := by
    rw [optionalBytes, if_pos (Or.inl hemit), if_pos hext]
    exact List.take_left' (by simp)
  rw [firstBytes_eq]
  exact setFromBuffer_iqzipHeader g _ [] _ hrest

include legal

/-- The Preprocessor code always comes from the header. -/
theorem parsed_preprocessorBlockSize :
    (g.setFromBuffer (firstBytes cfg payload)).decodePreprocessorBlockSize
      = preprocessorBlockSizeOf cfg.blockSize := by
  rw [← decodePreprocessorBlockSize_construct legal, firstBytes_eq]
  simp only [IqzipCompressionHeader.decodePreprocessorBlockSize,
    CompressionIdentificationPacket.decodePreprocessorBlockSize, setFromBuffer_preprocessor]

/-- The Extended Parameters code comes from the header when the writer emits that segment. -/
theorem parsed_extendedBlockSize
    (hseg : cfg.blockSize > 16 ∨ cfg.restrictedCodes ≠ 0) :
    (g.setFromBuffer (firstBytes cfg payload)).decodeExtendedParametersBlockSize
      = extendedBlockSizeOf cfg.blockSize := by
  have hemit : (zeroedHeader cfg).dBlockSize > 16 ∨ (zeroedHeader cfg).dRsi > 255
      ∨ (zeroedHeader cfg).dRestrictedCodes ≠ 0 := by
    simp only [zeroedHeader, construct_dBlockSize, construct_dRestrictedCodes]
    tauto
  obtain ⟨rest, hrest⟩ : ∃ rest, ((zeroedHeader cfg).optionalBytes ++ payload).take 4
      = (zeroedHeader cfg).dCip.dSourceDataVariable.extendedParameters.toList ++ rest := by
    rw [optionalBytes, if_pos hemit, List.append_assoc, take_four_append]
    exact ⟨_, rfl⟩
  rw [← decodeExtendedParametersBlockSize_construct legal, firstBytes_eq]
  simp only [IqzipCompressionHeader.decodeExtendedParametersBlockSize,
    CompressionIdentificationPacket.decodeExtendedParametersBlockSize,
    setFromBuffer_extendedParameters g _ rest _ hrest]

end Payload

/-! ## The header length -/

/-- The block sizes for which the parser's two codes tell it which segments the writer emitted. -/
def LengthAgrees (cfg : Config) : Prop :=
  cfg.blockSize > 64 ∨ cfg.blockSize = 64 ∨ cfg.blockSize = 32
    ∨ ((cfg.blockSize = 8 ∨ cfg.blockSize = 16) ∧ cfg.restrictedCodes = 0)

instance (cfg : Config) : Decidable (LengthAgrees cfg) :=
  inferInstanceAs (Decidable (_ ∨ _))

/-- **The two decision trees agree exactly for `LengthAgrees`.** -/
theorem parsedLength_eq_iff {cfg : Config} (legal : cfg.Legal) (g : IqzipCompressionHeader)
    (payload : List U8) :
    (g.parseBuffer (firstBytes cfg payload)).1 = (zeroedHeader cfg).headerBytes.length
      ↔ LengthAgrees cfg := by
  have hpre := parsed_preprocessorBlockSize legal g payload
  rw [parseBuffer_fst, hpre, zeroedHeader, length_construct_headerBytes]
  have hne := legal.blockSize
  by_cases hsmall : cfg.blockSize = 8 ∨ cfg.blockSize = 16
  · -- coded in the Preprocessor subfield: the parser stops at 14 bytes
    have hcode : preprocessorBlockSizeOf cfg.blockSize ≠ 0 := by
      rcases hsmall with hb | hb <;> rw [hb] <;> decide
    have hnot : ¬ cfg.blockSize > 64 ∧ ¬ cfg.blockSize > 16 := by
      rcases hsmall with hb | hb <;> rw [hb] <;> decide
    have hother : cfg.blockSize ≠ 64 ∧ cfg.blockSize ≠ 32 := by
      rcases hsmall with hb | hb <;> rw [hb] <;> decide
    rw [if_neg hcode]
    simp only [LengthAgrees, hnot, hother, hsmall, false_or, true_and, if_false]
    by_cases hr : cfg.restrictedCodes = 0 <;> simp [hr]
  rw [not_or] at hsmall
  have hcode : preprocessorBlockSizeOf cfg.blockSize = 0 := by
    rw [preprocessorBlockSizeOf, if_neg (by tauto), if_neg hsmall.2]
  rw [if_pos hcode]
  by_cases hseg : cfg.blockSize > 16 ∨ cfg.restrictedCodes ≠ 0
  · -- the Extended Parameters segment is there, and its code decides
    rw [parsed_extendedBlockSize legal g payload hseg, if_pos hseg]
    -- a code for 32 or 64 ends the header at 16 bytes, the others announce the extension
    by_cases hmid : cfg.blockSize = 32 ∨ cfg.blockSize = 64
    · have hext : extendedBlockSizeOf cfg.blockSize ≠ 0 := by
        rcases hmid with hb | hb <;> rw [hb] <;> decide
      have hle : ¬ cfg.blockSize > 64 := by
        rcases hmid with hb | hb <;> rw [hb] <;> decide
      rw [if_neg hext, if_neg hle]
      simp only [LengthAgrees]
      tauto
    · rw [not_or] at hmid
      have hext : extendedBlockSizeOf cfg.blockSize = 0 := by
        rw [extendedBlockSizeOf, if_neg (by tauto), if_neg hsmall.2, if_neg hmid.1, if_neg hmid.2]
      rw [if_pos hext]
      by_cases hbig : cfg.blockSize > 64 <;> simp only [LengthAgrees, hbig, if_true, if_false] <;>
        tauto
  · -- the segment is absent, but the parser counts it
    have hbig : ¬ cfg.blockSize > 64 := by
      intro hbig
      exact hseg (Or.inl (by bv_omega))
    have hmid : ¬ cfg.blockSize = 32 ∧ ¬ cfg.blockSize = 64 := by
      constructor <;> intro hb <;> exact hseg (Or.inl (by rw [hb]; decide))
    rw [if_neg hseg, if_neg hbig]
    simp only [LengthAgrees, hbig, hmid, hsmall, false_or, false_and, iff_false]
    split <;> decide

/-- **Header length agreement.** For every legal configuration and every payload that brings the
file to 18 bytes, `parse_header_from_file` returns the number of bytes `write_header_to_file`
emitted exactly when the block size is 32, 64 or more than 64, or it is 8 or 16 and the restricted
codes are off. -/
theorem parse_length_iff {cfg : Config} (legal : cfg.Legal) (g : IqzipCompressionHeader)
    (payload : List U8) (fs : FileSystem) (path : String)
    (hfile : fs.content path = some ((zeroedHeader cfg).headerBytes ++ payload))
    (hlen : 18 ≤ ((zeroedHeader cfg).headerBytes ++ payload).length) :
    (∃ g', g.parseHeaderFromFile fs path = .ok ((zeroedHeader cfg).headerBytes.length, g'))
      ↔ LengthAgrees cfg := by
  rw [parseHeaderFromFile_eq_ok g hfile hlen, ← firstBytes, ← parsedLength_eq_iff legal g payload]
  constructor
  · rintro ⟨g', hg'⟩
    rw [Except.ok.inj hg']
  · intro h
    refine ⟨(g.parseBuffer (firstBytes cfg payload)).2, ?_⟩
    rw [← h]

/-- The file of a header and a payload, on an otherwise empty machine. -/
def fileOf (bytes : List U8) : FileSystem := FileSystem.empty.put "in.iqz" bytes

/-- The parser object of a new decompressor, over zeroed storage. -/
def freshParser : IqzipCompressionHeader := IqzipCompressionHeader.default .zero

/-- The agreement at the tool's default configuration. -/
theorem parse_length_commandLine :
    ∃ g', freshParser.parseHeaderFromFile
        (fileOf ((zeroedHeader (commandLineConfig 1 1 1 0 8 1 64)).headerBytes ++ [1, 2])) "in.iqz"
      = .ok ((zeroedHeader (commandLineConfig 1 1 1 0 8 1 64)).headerBytes.length, g') :=
  (parse_length_iff (show (commandLineConfig 1 1 1 0 8 1 64).Legal by decide) freshParser [1, 2]
    (fileOf _) "in.iqz" (FileSystem.content_put_self ..) (by decide)).mpr (by decide)

/-- **The length is lost with restricted codes.** With block size 16 and restricted codes the
writer emits 16 bytes, and the parser returns 14. -/
theorem parse_length_restricted16 :
    (commandLineConfig 1 1 1 1 4 1 16).Legal
      ∧ (zeroedHeader (commandLineConfig 1 1 1 1 4 1 16)).headerBytes.length = 16
      ∧ ∃ g', freshParser.parseHeaderFromFile
          (fileOf ((zeroedHeader (commandLineConfig 1 1 1 1 4 1 16)).headerBytes ++ [1, 2]))
          "in.iqz"
        = .ok (14, g') :=
  ⟨by decide, by decide, _, rfl⟩

/-! ## The block size -/

/-- The block sizes that the codes of a header can return. -/
def decodableSizes : List U16 :=
  [0, 8, 16, 32, 64, 128, 256, 512, 1024, 2048, 4096, 8192, 16384, 32768, 65535]

/-- A choice between two of them is one of them. -/
theorem ite_mem_decodableSizes {p : Prop} [Decidable p] {a b : U16} (ha : a ∈ decodableSizes)
    (hb : b ∈ decodableSizes) : (if p then a else b) ∈ decodableSizes := by
  split
  · exact ha
  · exact hb

/-- `decode_block_size` returns one of fifteen values, whatever the bytes. -/
theorem decodeBlockSize_mem (h : IqzipCompressionHeader) : h.decodeBlockSize ∈ decodableSizes := by
  -- each of the three decoders is a chain of choices between constants
  have hpre : h.decodePreprocessorBlockSize ∈ decodableSizes := by
    unfold IqzipCompressionHeader.decodePreprocessorBlockSize
      CompressionIdentificationPacket.decodePreprocessorBlockSize
    repeat apply ite_mem_decodableSizes (by decide)
    decide
  have hext : h.decodeExtendedParametersBlockSize ∈ decodableSizes := by
    unfold IqzipCompressionHeader.decodeExtendedParametersBlockSize
      CompressionIdentificationPacket.decodeExtendedParametersBlockSize
    repeat apply ite_mem_decodableSizes (by decide)
    decide
  have hiq : h.decodeIqzipHeaderBlockSize ∈ decodableSizes := by
    unfold decodeIqzipHeaderBlockSize
    repeat apply ite_mem_decodableSizes (by decide)
    decide
  unfold decodeBlockSize
  exact ite_mem_decodableSizes (ite_mem_decodableSizes hiq hext) hpre

/-- The sizes above 128 with an extension code of their own. -/
def extensionSizes : List Nat := [256, 512, 1024, 2048, 4096, 8192, 16384, 32768]

/-- What the extension's decoder makes of the code written for `size`: sizes without a code of
their own share the code of 128. -/
theorem decodeIqzipHeaderBlockSize_of_code {h : IqzipCompressionHeader} {size : U16}
    (hcode : h.dIqzipHeader.blockSize = iqzipBlockSizeCode size.toNat) :
    h.decodeIqzipHeaderBlockSize = if size.toNat ∈ extensionSizes then size else 128 := by
  -- the decoder sees the code only, so it is run on a header with nothing else in it
  let decoded (n : Nat) : U16 :=
    { freshParser with
      dIqzipHeader := { blockSize := iqzipBlockSizeCode n, rsi := 0, endianness := 0 }
    }.decodeIqzipHeaderBlockSize
  have hdecoded : h.decodeIqzipHeaderBlockSize = decoded size.toNat := by
    simp only [decoded, decodeIqzipHeaderBlockSize, hcode]
  rw [hdecoded]
  split
  · next hmem =>
    have hall : ∀ n ∈ extensionSizes, decoded n = BitVec.ofNat 16 n := by decide
    rw [hall _ hmem, BitVec.ofNat_toNat, BitVec.setWidth_eq]
  · next hmem =>
    have hzero : iqzipBlockSizeCode size.toNat = 0 := by
      simp only [extensionSizes, List.mem_cons, List.not_mem_nil, or_false, not_or] at hmem
      simp [iqzipBlockSizeCode, hmem]
    simp only [decoded, hzero]
    rfl

/-- The powers of two from 8 to 32768. -/
def BlockSizeSurvives (cfg : Config) : Prop :=
  ∃ k, 3 ≤ k ∧ k ≤ 15 ∧ cfg.blockSize.toNat = 2 ^ k

/-- The sizes that survive are the sizes with a code of their own in one of the three tables. -/
theorem blockSizeSurvives_iff (cfg : Config) :
    BlockSizeSurvives cfg
      ↔ cfg.blockSize.toNat ∈ [8, 16, 32, 64, 128] ∨ cfg.blockSize.toNat ∈ extensionSizes := by
  constructor
  · rintro ⟨k, hlo, hhi, hk⟩
    rw [hk]
    interval_cases k <;> decide
  · intro h
    -- thirteen sizes, each the power its logarithm says
    have hpow : ∀ n ∈ [8, 16, 32, 64, 128] ++ extensionSizes, n = 2 ^ Nat.log2 n
        ∧ 3 ≤ Nat.log2 n ∧ Nat.log2 n ≤ 15 := by decide
    obtain ⟨heq, hlo, hhi⟩ := hpow _ (List.mem_append.mpr h)
    exact ⟨_, hlo, hhi, heq⟩

section BlockSize

variable {cfg : Config} (legal : cfg.Legal) (g : IqzipCompressionHeader) (payload : List U8)

include legal

/-- Above 64 all three codes come from the header, and the extension's code decides. -/
theorem parsed_blockSize_of_gt (hbig : cfg.blockSize > 64) :
    (g.setFromBuffer (firstBytes cfg payload)).decodeBlockSize
      = if cfg.blockSize.toNat ∈ extensionSizes then cfg.blockSize else 128 := by
  have hseg : cfg.blockSize > 16 := by bv_omega
  have hpre : preprocessorBlockSizeOf cfg.blockSize = 0 := by
    rw [preprocessorBlockSizeOf, if_neg, if_neg] <;> bv_omega
  have hext : extendedBlockSizeOf cfg.blockSize = 0 := by
    rw [extendedBlockSizeOf, if_neg, if_neg, if_neg, if_neg] <;> bv_omega
  have hcode : (g.setFromBuffer (firstBytes cfg payload)).dIqzipHeader.blockSize
      = iqzipBlockSizeCode cfg.blockSize.toNat := by
    rw [parsed_iqzipHeader g payload hbig, zeroedHeader,
      construct_dIqzipHeader _ _ legal.endianness]
  simp only [decodeBlockSize, parsed_preprocessorBlockSize legal, hpre,
    parsed_extendedBlockSize legal g payload (Or.inl hseg), hext, if_true]
  exact decodeIqzipHeaderBlockSize_of_code hcode

/-- **Block size recovery, on the parsed bytes.** -/
theorem parsed_blockSize_iff :
    (g.setFromBuffer (firstBytes cfg payload)).decodeBlockSize = cfg.blockSize
      ↔ BlockSizeSurvives cfg := by
  rw [blockSizeSurvives_iff]
  by_cases hbig : cfg.blockSize > 64
  · -- of the sizes with a code in the first two tables only 128 is above 64
    rw [parsed_blockSize_of_gt legal g payload hbig]
    have hlow : cfg.blockSize.toNat ∈ [8, 16, 32, 64, 128] ↔ 128 = cfg.blockSize := by
      simp only [List.mem_cons, List.not_mem_nil, or_false]
      constructor
      · intro h; bv_omega
      · intro h; bv_omega
    rw [hlow]
    split <;> simp_all
  · have hhigh : cfg.blockSize.toNat ∉ extensionSizes := by
      simp only [extensionSizes, List.mem_cons, List.not_mem_nil, or_false]
      bv_omega
    constructor
    · intro h
      -- the decoders return one of fifteen values, and only four of them are at most 64
      have hmem := decodeBlockSize_mem (g.setFromBuffer (firstBytes cfg payload))
      rw [h] at hmem
      have hne := legal.blockSize
      simp only [decodableSizes, List.mem_cons, List.not_mem_nil, or_false] at hmem
      refine Or.inl ?_
      simp only [List.mem_cons, List.not_mem_nil, or_false]
      bv_omega
    · intro h
      have hlow := h.resolve_right hhigh
      simp only [List.mem_cons, List.not_mem_nil, or_false] at hlow
      have hcases : cfg.blockSize = 8 ∨ cfg.blockSize = 16 ∨ cfg.blockSize = 32
          ∨ cfg.blockSize = 64 := by bv_omega
      rcases hcases with hb | hb | hb | hb
      · simp only [decodeBlockSize, parsed_preprocessorBlockSize legal, hb]
        rfl
      · simp only [decodeBlockSize, parsed_preprocessorBlockSize legal, hb]
        rfl
      · simp only [decodeBlockSize, parsed_preprocessorBlockSize legal,
          parsed_extendedBlockSize legal g payload (Or.inl (by rw [hb]; decide)), hb]
        rfl
      · simp only [decodeBlockSize, parsed_preprocessorBlockSize legal,
          parsed_extendedBlockSize legal g payload (Or.inl (by rw [hb]; decide)), hb]
        rfl

end BlockSize

/-- **Block size recovery.** For every legal configuration and every payload that brings the file
to 18 bytes, `decode_block_size` after the parse returns the encoded block size exactly when it is
a power of two from 8 to 32768. -/
theorem parse_blockSize_iff {cfg : Config} (legal : cfg.Legal) (g : IqzipCompressionHeader)
    (payload : List U8) (fs : FileSystem) (path : String)
    (hfile : fs.content path = some ((zeroedHeader cfg).headerBytes ++ payload))
    (hlen : 18 ≤ ((zeroedHeader cfg).headerBytes ++ payload).length) :
    (∃ n g', g.parseHeaderFromFile fs path = .ok (n, g') ∧ g'.decodeBlockSize = cfg.blockSize)
      ↔ BlockSizeSurvives cfg := by
  rw [parseHeaderFromFile_eq_ok g hfile hlen, ← parsed_blockSize_iff legal g payload]
  obtain ⟨b, hb⟩ := parseBuffer_snd g (firstBytes cfg payload)
  constructor
  · rintro ⟨n, g', hok, hsize⟩
    have hg' : g' = { g.setFromBuffer (firstBytes cfg payload) with dBlockSize := b } := by
      rw [← hb]
      exact (congrArg Prod.snd (Except.ok.inj hok)).symm
    rw [← hsize, hg']
    rfl
  · intro hsize
    refine ⟨_, (g.parseBuffer (firstBytes cfg payload)).2, rfl, ?_⟩
    rw [hb, ← hsize]
    rfl

/-- The recovery at the tool's default configuration. -/
theorem parse_blockSize_commandLine :
    ∃ n g', freshParser.parseHeaderFromFile
        (fileOf ((zeroedHeader (commandLineConfig 1 1 1 0 8 1 64)).headerBytes ++ [1, 2])) "in.iqz"
      = .ok (n, g') ∧ g'.decodeBlockSize = 64 :=
  (parse_blockSize_iff (show (commandLineConfig 1 1 1 0 8 1 64).Legal by decide) freshParser [1, 2]
    (fileOf _) "in.iqz" (FileSystem.content_put_self ..) (by decide)).mpr
    ⟨6, by decide, by decide, by decide⟩

/-- **The largest block size is lost.** The code of 65535 is out of reach of the writer's test
`block_size == 65536`, so the size comes back as 128. -/
theorem parse_blockSize_largest :
    (commandLineConfig 1 1 1 0 8 1 65535).Legal
      ∧ ∃ n g', freshParser.parseHeaderFromFile
          (fileOf ((zeroedHeader (commandLineConfig 1 1 1 0 8 1 65535)).headerBytes ++ [1, 2]))
          "in.iqz"
        = .ok (n, g') ∧ g'.decodeBlockSize = 128 :=
  ⟨by decide, _, _, rfl, by decide⟩

end IQzip
