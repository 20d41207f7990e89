import IQzip.DecoderParameters
import IQzip.FieldRoundTrip

/-! # Which configurations come back

The decompressor knows of the compressor's configuration what the header says. `recovers_iff` is the
condition under which that is enough: the parser stops where the payload starts, and the parameters
of the decoder are those of the encoder. It is a condition on four arguments, and for block sizes up
to 64 also on payload bits that the parser takes for option bits. -/

namespace IQzip

open Library IqzipCompressionHeader CompressionIdentificationPacket

section Parsed

variable {cfg : Config} (legal : cfg.Legal) (g : IqzipCompressionHeader) (payload : List U8)

/-! ## The bytes the parser takes from the header -/

/-- Mandatory bytes fill the fixed part of the parser's packet. -/
theorem setFromBuffer_sourceDataFixed (h : IqzipCompressionHeader) (rest : List U8) :
    (g.setFromBuffer (h.mandatoryBytes ++ rest)).dCip.dSourceDataFixed
      = h.dCip.dSourceDataFixed := by
  -- six bytes lie before the field
  have hread := bytesOf_append h.dPrimaryHeader.dPrimaryHeader.toList
    (h.dCip.dSourceDataVariable.preprocessor.toList
      ++ (h.dCip.dSourceDataVariable.entropyCoder.toList ++ rest)) h.dCip.dSourceDataFixed
  rw [Vector.length_toList] at hread
  simp only [mandatoryBytes, List.append_assoc]
  exact hread

/-- The interval comes back, whatever it is. -/
theorem parsed_interval_eq :
    (g.setFromBuffer (firstBytes cfg payload)).decodedConfig.referenceSampleInterval
      = cfg.referenceSampleInterval := by
  change (g.setFromBuffer (firstBytes cfg payload)).dCip.dSourceDataFixed.get 3 + 1 = _
  rw [firstBytes_eq, setFromBuffer_sourceDataFixed, zeroedHeader, construct_sourceDataFixed]
  exact intervalByte_add_one _

include legal

/-- The two Preprocessor bytes. -/
theorem parsed_preprocessor :
    (g.setFromBuffer (firstBytes cfg payload)).dCip.dSourceDataVariable.preprocessor
      = bytes2 (statusBits cfg.preprocessorStatus
            ||| (predictorTypeBits cfg.predictorType ||| mapperTypeBits cfg.mapperType))
          (preprocessorBlockSizeBits cfg.blockSize
            ||| (dataSenseBits cfg.dataSense ||| sampleResolutionBits cfg.sampleResolution)) := by
  have hzero : ∀ i, HeaderStorage.zero.sourceDataVariable.preprocessor.get i = 0#8 := by decide
  rw [firstBytes_eq, setFromBuffer_preprocessor, zeroedHeader,
    construct_sourceDataVariable _ _ legal.cdsPerPacket]
  simp only [hzero, BitVec.zero_or]

/-- The packet fields of a legal configuration that share a byte; the others do not matter. -/
theorem Config.Legal.accepted :
    MandatoryFields.Accepted ⟨0, 0, 1, cfg.preprocessorStatus, cfg.predictorType, cfg.mapperType,
      cfg.dataSense, cfg.sampleResolution⟩ :=
  ⟨(by decide : (0 : U16) < 4096), (by decide : (1 : U8) ≤ 1), legal.preprocessorStatus,
    legal.predictorType, legal.mapperType, legal.dataSense, legal.sampleResolution⟩

/-- The preprocessor status comes back. -/
theorem parsed_status_eq :
    (g.setFromBuffer (firstBytes cfg payload)).decodedConfig.preprocessorStatus
      = cfg.preprocessorStatus := by
  change statusField.get
    ((g.setFromBuffer (firstBytes cfg payload)).dCip.dSourceDataVariable.preprocessor.get 0) = _
  rw [parsed_preprocessor legal, bytes2_get_zero]
  exact (preprocessorByte_get legal.accepted).1

/-- The data sense comes back. -/
theorem parsed_dataSense_eq :
    (g.setFromBuffer (firstBytes cfg payload)).decodedConfig.dataSense = cfg.dataSense := by
  change dataSenseField.get
    ((g.setFromBuffer (firstBytes cfg payload)).dCip.dSourceDataVariable.preprocessor.get 1) = _
  rw [parsed_preprocessor legal, bytes2_get_one]
  exact (sampleByte_get legal.accepted cfg.blockSize).1

/-- Of the sample resolution the low five bits come back. -/
theorem parsed_resolution_eq :
    (g.setFromBuffer (firstBytes cfg payload)).decodedConfig.sampleResolution
      = cfg.sampleResolution &&& 0x1f := by
  change sampleResolutionField.get
    ((g.setFromBuffer (firstBytes cfg payload)).dCip.dSourceDataVariable.preprocessor.get 1) = _
  rw [parsed_preprocessor legal, bytes2_get_one]
  exact (sampleByte_get legal.accepted cfg.blockSize).2

end Parsed

/-! ## The option bits -/

/-- Behind the header the parser reads the payload. -/
theorem firstBytes_payload (cfg : Config) (payload : List U8) {i : Nat}
    (hi : (zeroedHeader cfg).headerBytes.length + i < 18) :
    (firstBytes cfg payload).getD ((zeroedHeader cfg).headerBytes.length + i) 0
      = payload.getD i 0 := by
  rw [firstBytes, getD_take_maxHeaderSize _ hi, List.getD_eq_getElem?_getD,
    List.getElem?_append_right (by omega), Nat.add_sub_cancel_left, List.getD_eq_getElem?_getD]

section Bits

variable {cfg : Config} (legal : cfg.Legal) (payload : List U8)

include legal

/-- The restricted-code bit the parser reads: that of the header, or one of the payload. -/
theorem parsed_restrictedBit :
    headerBit (firstBytes cfg payload) 15 6
      = if cfg.blockSize > 16 ∨ cfg.restrictedCodes ≠ 0 then decide (cfg.restrictedCodes = 1)
        else headerBit payload 1 6 := by
  by_cases hseg : cfg.blockSize > 16 ∨ cfg.restrictedCodes ≠ 0
  · have hemit : (zeroedHeader cfg).dBlockSize > 16 ∨ (zeroedHeader cfg).dRsi > 255
        ∨ (zeroedHeader cfg).dRestrictedCodes ≠ 0 := by
      simp only [zeroedHeader, construct_dBlockSize, construct_dRestrictedCodes]
      tauto
    have hread : (freshParser.setFromBuffer
        (firstBytes cfg payload)).dCip.dSourceDataVariable.extendedParameters
        = (zeroedHeader cfg).dCip.dSourceDataVariable.extendedParameters := by
      rw [firstBytes_eq, optionalBytes, if_pos hemit, List.append_assoc, take_four_append]
      exact setFromBuffer_extendedParameters freshParser _ _ _ rfl
    have hbyte : (firstBytes cfg payload).getD 15 0
        = restrictedCodeBits cfg.restrictedCodes
          ||| (intervalByte cfg.referenceSampleInterval &&& 0xf) := by
      refine (bytesOf_get (n := 2) _ 14 1).symm.trans ?_
      refine (congrArg (fun v : Vector U8 2 => v.get 1) hread).trans ?_
      rw [zeroedHeader, construct_sourceDataVariable _ _ legal.cdsPerPacket, bytes2_get_one]
    have hall : ∀ b : U8, (restrictedCodeBits 0 ||| (b &&& 0xf)).getLsbD 6 = false
        ∧ (restrictedCodeBits 1 ||| (b &&& 0xf)).getLsbD 6 = true := by decide
    rw [if_pos hseg, headerBit, hbyte]
    rcases legal.restrictedCodes with hr | hr
    · rw [hr, (hall _).1]
      rfl
    · rw [hr, (hall _).2]
      rfl
  · have hlen : (zeroedHeader cfg).headerBytes.length = 14 := by
      have hbig : ¬ cfg.blockSize > 64 := fun h => hseg (Or.inl (by bv_omega))
      rw [zeroedHeader, length_construct_headerBytes, if_neg hseg, if_neg hbig]
    have hread := firstBytes_payload cfg payload (i := 1) (by rw [hlen]; decide)
    rw [hlen] at hread
    rw [if_neg hseg, headerBit, headerBit, hread]

/-- The endianness bit the parser reads: that of the header, or one of the payload. -/
theorem parsed_endiannessBit :
    headerBit (firstBytes cfg payload) 17 7
      = if cfg.blockSize > 64 then decide (cfg.endianness = 1)
        else if cfg.blockSize > 16 ∨ cfg.restrictedCodes ≠ 0 then headerBit payload 1 7
        else headerBit payload 3 7 := by
  by_cases hbig : cfg.blockSize > 64
  · have hread := parsed_iqzipHeader freshParser payload hbig
    have hfield : (freshParser.setFromBuffer (firstBytes cfg payload)).decodedConfig.endianness
        = cfg.endianness := by
      change (freshParser.setFromBuffer
        (firstBytes cfg payload)).decodeIqzipHeaderEndianess.setWidth 8 = _
      rw [decodeIqzipHeaderEndianess_eq, hread, zeroedHeader,
        construct_dIqzipHeader _ _ legal.endianness]
      rcases legal.endianness with he | he <;> rw [he] <;> rfl
    rw [parsed_endianness_eq] at hfield
    rw [if_pos hbig, headerBit, ← hfield]
    cases ((firstBytes cfg payload).getD 17 0).getLsbD 7 <;> rfl
  · have hlen := length_construct_headerBytes HeaderStorage.zero cfg
    rw [if_neg hbig, Nat.add_zero, ← zeroedHeader] at hlen
    rw [if_neg hbig]
    by_cases hseg : cfg.blockSize > 16 ∨ cfg.restrictedCodes ≠ 0
    · rw [if_pos hseg] at hlen ⊢
      have hread := firstBytes_payload cfg payload (i := 1) (by rw [hlen]; decide)
      rw [hlen] at hread
      rw [headerBit, headerBit, hread]
    · rw [if_neg hseg] at hlen ⊢
      have hread := firstBytes_payload cfg payload (i := 3) (by rw [hlen]; decide)
      rw [hlen] at hread
      rw [headerBit, headerBit, hread]

end Bits

/-! ## The condition -/

/-- The payload bits that lie where the parser looks for option bits. -/
def PayloadAgrees (cfg : Config) (payload : List U8) : Prop :=
  (cfg.blockSize ≤ 16 → headerBit payload 1 6 = false
      ∧ headerBit payload 3 7 = decide (cfg.endianness = 1))
    ∧ (16 < cfg.blockSize → cfg.blockSize ≤ 64
      → headerBit payload 1 7 = decide (cfg.endianness = 1))

instance (cfg : Config) (payload : List U8) : Decidable (PayloadAgrees cfg payload) :=
  inferInstanceAs (Decidable (_ ∧ _))

/-- A configuration in front of a payload is recoverable. -/
structure Recoverable (cfg : Config) (payload : List U8) : Prop where
  blockSize : BlockSizeSurvives cfg
  sampleResolution : cfg.sampleResolution ≠ 32
  restrictedCodes : cfg.restrictedCodes = 0
  payload : PayloadAgrees cfg payload

/-- The sizes that survive have a header of the length the parser takes it for. -/
theorem lengthAgrees_of_survives {cfg : Config} (hsize : BlockSizeSurvives cfg)
    (hr : cfg.restrictedCodes = 0) : LengthAgrees cfg := by
  rw [blockSizeSurvives_iff] at hsize
  simp only [extensionSizes, List.mem_cons, List.not_mem_nil, or_false] at hsize
  simp only [LengthAgrees, hr, and_true]
  bv_omega

section Flags

/-- The flags word of legal option values. -/
theorem flagsOf_of_options {cfg : Config} {sense endian status restricted : Bool}
    (hsense : cfg.dataSense = if sense then 1 else 0)
    (hendian : cfg.endianness = if endian then 1 else 0)
    (hstatus : cfg.preprocessorStatus = if status then 1 else 0)
    (hrestricted : cfg.restrictedCodes = if restricted then 1 else 0) :
    flagsOf cfg = aecData3Byte ||| aecNotEnforce
      ||| (if sense then 0 else aecDataSigned)
      ||| (if endian then 0 else aecDataMsb)
      ||| (if status then aecDataPreprocess else 0)
      ||| (if restricted then aecRestricted else 0) := by
  simp only [flagsOf, hsense, hendian, hstatus, hrestricted]
  clear hsense hendian hstatus hrestricted
  revert sense endian status restricted
  decide

/-- The two words, the parsed one with its bit 10 and the encoder's, are equal when the restricted
codes are off on both sides and the endianness is the same. -/
theorem flags_words_iff (sense status endian endian' restricted restricted' : Bool) :
    aecData3Byte ||| aecNotEnforce
        ||| (if sense then 0 else aecDataSigned)
        ||| (if endian' then 0 else aecDataMsb)
        ||| (if status then aecDataPreprocess else 0)
        ||| (if restricted' then 0x400 else 0)
      = aecData3Byte ||| aecNotEnforce
        ||| (if sense then 0 else aecDataSigned)
        ||| (if endian then 0 else aecDataMsb)
        ||| (if status then aecDataPreprocess else 0)
        ||| (if restricted then aecRestricted else 0)
      ↔ restricted = false ∧ restricted' = false ∧ endian' = endian := by
  revert sense status endian endian' restricted restricted'
  decide

/-- A byte that is 0 or 1 is the number of a truth value. -/
theorem bit_eq_ite {b : U8} (h : b = 0 ∨ b = 1) : b = if decide (b = 1) then 1 else 0 := by
  rcases h with rfl | rfl <;> rfl

end Flags

section Recovers

variable {cfg : Config} (legal : cfg.Legal) (g : IqzipCompressionHeader) (payload : List U8)

include legal

/-- The flags come back when the restricted codes are off and the bits the parser reads say so. -/
theorem parsed_flags_iff :
    flagsOf (g.setFromBuffer (firstBytes cfg payload)).decodedConfig = flagsOf cfg
      ↔ cfg.restrictedCodes = 0 ∧ PayloadAgrees cfg payload := by
  have hsense := parsed_dataSense_eq legal g payload
  have hstatus := parsed_status_eq legal g payload
  rw [bit_eq_ite legal.dataSense] at hsense
  rw [bit_eq_ite legal.preprocessorStatus] at hstatus
  rw [flagsOf_of_bits hsense (parsed_endianness_eq g _) hstatus (parsed_restrictedCodes g _),
    flagsOf_of_options (bit_eq_ite legal.dataSense) (bit_eq_ite legal.endianness)
      (bit_eq_ite legal.preprocessorStatus) (bit_eq_ite legal.restrictedCodes),
    flags_words_iff, ← headerBit, ← headerBit, parsed_restrictedBit legal payload,
    parsed_endiannessBit legal payload]
  have hr : decide (cfg.restrictedCodes = 1) = false ↔ cfg.restrictedCodes = 0 := by
    rcases legal.restrictedCodes with h | h <;> rw [h] <;> decide
  rw [hr]
  unfold PayloadAgrees
  constructor
  · rintro ⟨hzero, hbit, hendian⟩
    refine ⟨hzero, fun hle => ?_, fun hgt hle => ?_⟩
    · have h16 : ¬ cfg.blockSize > 16 := BitVec.not_lt.mpr hle
      have h64 : ¬ cfg.blockSize > 64 := by bv_omega
      simp only [h16, h64, hzero, ne_eq, not_true, or_self, if_false] at hbit hendian
      exact ⟨hbit, hendian⟩
    · have h64 : ¬ cfg.blockSize > 64 := BitVec.not_lt.mpr hle
      rw [if_neg h64, if_pos (Or.inl hgt)] at hendian
      exact hendian
  · rintro ⟨hzero, hlow, hmid⟩
    refine ⟨hzero, ?_, ?_⟩
    · by_cases h16 : cfg.blockSize > 16
      · rw [if_pos (Or.inl h16), hzero]
        rfl
      · simp only [h16, hzero, ne_eq, not_true, or_self, if_false]
        exact (hlow (BitVec.not_lt.mp h16)).1
    · by_cases h64 : cfg.blockSize > 64
      · rw [if_pos h64]
      · rw [if_neg h64]
        by_cases h16 : cfg.blockSize > 16
        · rw [if_pos (Or.inl h16)]
          exact hmid h16 (BitVec.not_lt.mp h64)
        · simp only [h16, hzero, ne_eq, not_true, or_self, if_false]
          exact (hlow (BitVec.not_lt.mp h16)).2

/-- **Recovery, on the parsed bytes.** The parser stops at the payload with the parameters of the
encoder exactly when the configuration is recoverable. -/
theorem parsed_recovers_iff :
    ((g.parseBuffer (firstBytes cfg payload)).1 = (zeroedHeader cfg).headerBytes.length
        ∧ aecParamsOf (g.parseBuffer (firstBytes cfg payload)).2.decodedConfig = aecParamsOf cfg)
      ↔ Recoverable cfg payload := by
  have hsize := parsed_blockSize_iff legal g payload
  have hflags := parsed_flags_iff legal g payload
  have hwiden : ∀ {n} (hn : n ≤ 32) (a b : BitVec n),
      a.setWidth 32 = (b.setWidth 32 : U32) ↔ a = b := by
    intro n hn a b
    constructor
    · intro h
      have hback := congrArg (BitVec.setWidth n) h
      rwa [BitVec.setWidth_setWidth_of_le _ hn, BitVec.setWidth_setWidth_of_le _ hn,
        BitVec.setWidth_eq, BitVec.setWidth_eq] at hback
    · rintro rfl
      rfl
  rw [decodedConfig_parseBuffer, parsedLength_eq_iff legal]
  simp only [aecParamsOf, AecParams.mk.injEq, hwiden (show 8 ≤ 32 by decide),
    hwiden (show 16 ≤ 32 by decide), parsed_resolution_eq legal, parsed_interval_eq, hflags,
    sampleResolution_kept_iff legal.sampleResolution]
  change _ ∧ _ ∧ (g.setFromBuffer (firstBytes cfg payload)).decodeBlockSize = _ ∧ _ ∧ _ ↔ _
  rw [hsize]
  constructor
  · rintro ⟨-, hres, hsurvives, -, hr, hbits⟩
    exact ⟨hsurvives, hres, hr, hbits⟩
  · rintro ⟨hsurvives, hres, hr, hbits⟩
    exact ⟨lengthAgrees_of_survives hsurvives hr, hres, hsurvives, trivial, hr, hbits⟩

end Recovers

/-- **Which configurations come back.** For every legal configuration, payload and decompressor,
`decompress_init` on the file of both arrives at the compressor's coder parameters, with the
payload where the header ends, exactly when the block size is a power of two from 8 to 32768, the
sample resolution is not 32, the restricted codes are off, and for block sizes up to 64 the payload
has the right bits. -/
theorem recovers_iff {σ : Type} (api : Aec σ) (c : DecompressorImpl σ) {cfg : Config}
    (legal : cfg.Legal) {fs : FileSystem} {fin : String} (fout : String) {payload : List U8}
    (hfile : fs.content fin = some ((zeroedHeader cfg).headerBytes ++ payload))
    (hlen : 18 ≤ ((zeroedHeader cfg).headerBytes ++ payload).length) :
    (∃ status c' fs', c.decompressInit api fs fin fout = .ok (status, c', fs')
        ∧ c'.dStrm.toAecParams = aecParamsOf cfg
        ∧ c'.dIqzipHeaderSize = (zeroedHeader cfg).headerBytes.length)
      ↔ Recoverable cfg payload := by
  obtain ⟨status, c', fs', hinit, hparams, hsize⟩ := c.decompressInit_setup api fout hfile hlen
  rw [← parsed_recovers_iff legal c.dCcsdsCipHdr payload, firstBytes, ← hparams, ← hsize]
  constructor
  · rintro ⟨status', d, fs'', hinit', hsame, hstop⟩
    rw [hinit] at hinit'
    cases hinit'
    exact ⟨hstop, hsame⟩
  · rintro ⟨hstop, hsame⟩
    exact ⟨status, c', fs', hinit, hsame, hstop⟩

/-- The tool's default configuration comes back in front of a payload with the right bit. -/
theorem recovers_commandLine :
    ∃ status c' fs', (DecompressorImpl.construct (zeroStorage (Given U8))).decompressInit
        (.ofFunctions id id)
        (fileOf ((zeroedHeader (commandLineConfig 1 1 1 0 8 1 64)).headerBytes ++ [1, 0x80]))
        "in.iqz" "out" = .ok (status, c', fs')
      ∧ c'.dStrm.toAecParams = aecParamsOf (commandLineConfig 1 1 1 0 8 1 64)
      ∧ c'.dIqzipHeaderSize
        = (zeroedHeader (commandLineConfig 1 1 1 0 8 1 64)).headerBytes.length :=
  (recovers_iff (.ofFunctions id id) (DecompressorImpl.construct (zeroStorage _))
    (show (commandLineConfig 1 1 1 0 8 1 64).Legal by decide) "out"
    (FileSystem.content_put_self ..) (by decide)).mpr
    ⟨⟨6, by decide, by decide, by decide⟩, by decide, rfl, by decide⟩

end IQzip
