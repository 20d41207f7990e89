import IQzip.HeaderShape
import IQzip.Library.Dropped

/-! # What construction does with an invalid argument

Twelve encoders test their argument and end their error branch with `std::runtime_error("…");`, a
statement that builds an exception and throws nothing. The setters of the packet and of the header
cannot show that: their value is the same as without the statement. Here the constructor runs once
more as a computation that could throw and that keeps every exception built on the way.

* `Construction.construct_yields`: it returns the object of the plain constructor, and the messages
  it dropped are those of the invalid arguments, in the order of the calls.
* `construct_rejects_iff`: so it rejects exactly what it should when there is nothing to reject. -/

namespace IQzip

open Library

/-- A computation of the header classes. -/
abbrev Construction := Dropping RuntimeError

namespace Construction

open Dropping

/-! ## The encoders with an error branch -/

/-- `encode_preprocessor_status`. -/
def encodePreprocessorStatus (status : U8) :
    CompressionIdentificationPacket → Construction CompressionIdentificationPacket :=
  guarded (status = 0 ∨ status = 1) ⟨"Invalid preprocessor status"⟩
    (·.encodePreprocessorStatus status)

/-- `encode_preprocessor_predictor_type`. -/
def encodePreprocessorPredictorType (type : U8) :
    CompressionIdentificationPacket → Construction CompressionIdentificationPacket :=
  guarded (type = 7 ∨ type = 0 ∨ type = 1) ⟨"Invalid preprocessor predictor type"⟩
    (·.encodePreprocessorPredictorType type)

/-- `encode_preprocessor_mapper_type`. -/
def encodePreprocessorMapperType (type : U8) :
    CompressionIdentificationPacket → Construction CompressionIdentificationPacket :=
  guarded (type = 3 ∨ type = 0) ⟨"Invalid preprocessor mapper type"⟩
    (·.encodePreprocessorMapperType type)

/-- `encode_preprocessor_block_size`. -/
def encodePreprocessorBlockSize (size : U16) :
    CompressionIdentificationPacket → Construction CompressionIdentificationPacket :=
  guarded (¬ size ≤ 0) ⟨"Invalid preprocessor block size"⟩ (·.encodePreprocessorBlockSize size)

/-- `encode_preprocessor_data_sense`. -/
def encodePreprocessorDataSense (dataSense : U8) :
    CompressionIdentificationPacket → Construction CompressionIdentificationPacket :=
  guarded (dataSense = 1 ∨ dataSense = 0) ⟨"Invalid preprocessor data sense"⟩
    (·.encodePreprocessorDataSense dataSense)

/-- `encode_preprocessor_sample_resolution`. -/
def encodePreprocessorSampleResolution (resolution : U8) :
    CompressionIdentificationPacket → Construction CompressionIdentificationPacket :=
  guarded (resolution ≥ 1 ∧ resolution ≤ 32) ⟨"Invalid preprocessor sample resolution"⟩
    (·.encodePreprocessorSampleResolution resolution)

/-- `encode_entropy_coder_resolution_range`: a resolution over 32 gets the spare code. -/
def encodeEntropyCoderResolutionRange (resolution : U8) :
    CompressionIdentificationPacket → Construction CompressionIdentificationPacket :=
  guarded (¬ resolution ≤ 0) ⟨"Invalid entropy coder resolution range"⟩
    (·.encodeEntropyCoderResolutionRange resolution)

/-- `encode_entropy_coder_cds_num`. -/
def encodeEntropyCoderCdsNum (num : U16) :
    CompressionIdentificationPacket → Construction CompressionIdentificationPacket :=
  guarded (num ≥ 1 ∧ num ≤ 4096) ⟨"Invalid entropy coder resolution range"⟩
    (·.encodeEntropyCoderCdsNum num)

/-- `encode_extended_parameters_block_size`. -/
def encodeExtendedParametersBlockSize (size : U16) :
    CompressionIdentificationPacket → Construction CompressionIdentificationPacket :=
  guarded (¬ size ≤ 0) ⟨"Invalid extended parameters block size"⟩
    (·.encodeExtendedParametersBlockSize size)

/-- `encode_extended_parameters_restricted_code_option`. -/
def encodeExtendedParametersRestrictedCodeOption (option : U8) :
    CompressionIdentificationPacket → Construction CompressionIdentificationPacket :=
  guarded (option = 0 ∨ option = 1) ⟨"Invalid extended parameters restricted code option"⟩
    (·.encodeExtendedParametersRestrictedCodeOption option)

/-- `encode_iqzip_header_block_size`. -/
def encodeIqzipHeaderBlockSize (size : Nat) :
    IqzipCompressionHeader → Construction IqzipCompressionHeader :=
  guarded (¬ size > 65535) ⟨"Invalid IQzip header block size"⟩
    (·.encodeIqzipHeaderBlockSize size)

/-- `encode_iqzip_header_endianness`. -/
def encodeIqzipHeaderEndianness (endianness : U8) :
    IqzipCompressionHeader → Construction IqzipCompressionHeader :=
  guarded (endianness = 1 ∨ endianness = 0) ⟨"Invalid IQzip header endianess"⟩
    (·.encodeIqzipHeaderEndianness endianness)

/-! ## The constructors -/

/-- `encode_preprocessor`. -/
def encodePreprocessor (c : CompressionIdentificationPacket) :
    Construction CompressionIdentificationPacket := do
  let c := c.encodePreprocessorHeader
  let c ← encodePreprocessorStatus c.dPreprocessorStatus c
  let c ← encodePreprocessorPredictorType c.dPredictorType c
  let c ← encodePreprocessorMapperType c.dMapperType c
  let c ← encodePreprocessorBlockSize c.dBlockSize c
  let c ← encodePreprocessorDataSense c.dDataSense c
  encodePreprocessorSampleResolution c.dSampleResolution c

/-- `encode_entropy_coder`. -/
def encodeEntropyCoder (c : CompressionIdentificationPacket) :
    Construction CompressionIdentificationPacket := do
  let c := c.encodeEntropyCoderHeader
  let c ← encodeEntropyCoderResolutionRange c.dSampleResolution c
  encodeEntropyCoderCdsNum c.dCdsPerPacket c

/-- `encode_extended_parameters`. -/
def encodeExtendedParameters (c : CompressionIdentificationPacket) :
    Construction CompressionIdentificationPacket := do
  let c := c.clearExtendedParameters.encodeExtendedParametersHeader
  let c ← encodeExtendedParametersBlockSize c.dBlockSize c
  let c ← encodeExtendedParametersRestrictedCodeOption c.dRestrictedCodes c
  pure (c.encodeExtendedParametersReferenceSampleInterval c.dReferenceSampleInterval)

/-- `compression_identification_packet::encode`. -/
def encodePacket (c : CompressionIdentificationPacket) :
    Construction CompressionIdentificationPacket := do
  let c := c.encodeGroupingDataLength c.dGroupingDataLength
  let c := c.encodeCompressionTechniqueId c.dCompressionTechId
  let c := c.encodeReferenceSampleInterval c.dReferenceSampleInterval
  let c ← encodePreprocessor c
  let c ← encodeEntropyCoder c
  encodeExtendedParameters c.encodeInstrumentConfiguration

/-- `iqzip_compression_header::encode`. -/
def encodeHeader (h : IqzipCompressionHeader) : Construction IqzipCompressionHeader := do
  let h ← encodeIqzipHeaderBlockSize h.dBlockSize.toNat h
  let h ← encodeIqzipHeaderEndianness h.dEndianness h
  pure (h.encodeIqzipHeaderReferenceSampleInterval h.dRsi)

/-- The members that the packet's constructor initialises. -/
def packetMembers (storage : HeaderStorage) (cfg : Config) : CompressionIdentificationPacket :=
  { dGroupingDataLength := cfg.groupingDataLength
    dCompressionTechId := cfg.compressionTechId
    dReferenceSampleInterval := cfg.referenceSampleInterval
    dPreprocessorStatus := cfg.preprocessorStatus
    dPredictorType := cfg.predictorType
    dMapperType := cfg.mapperType
    dSampleResolution := cfg.sampleResolution
    dDataSense := cfg.dataSense
    dRestrictedCodes := cfg.restrictedCodes
    dBlockSize := cfg.blockSize
    dCdsPerPacket := cfg.cdsPerPacket
    dSourceDataFixed := storage.sourceDataFixed
    dSourceDataVariable := storage.sourceDataVariable }

/-- The members that the header's constructor initialises. Its two objects do not exist yet; the
default ones stand for the pointers, which `encode` does not follow. -/
def headerMembers (storage : HeaderStorage) (cfg : Config) : IqzipCompressionHeader :=
  { dIqzipHeader := storage.iqzipHeader
    dPrimaryHeader := CcsdsPacketPrimaryHeader.default storage.primaryHeader
    dCip :=
      CompressionIdentificationPacket.default storage.sourceDataFixed storage.sourceDataVariable
    dBlockSize := cfg.blockSize
    dRsi := cfg.referenceSampleInterval.setWidth 16
    dEndianness := cfg.endianness
    dVersion := cfg.version
    dType := cfg.type
    dSecHdrFlag := cfg.secHdrFlag
    dSequenceFlags := cfg.sequenceFlags
    dRestrictedCodes := cfg.restrictedCodes
    dApid := cfg.apid
    dSequenceCount := cfg.packetSequenceCount
    dDataLength := cfg.packetDataLength }

/-- The constructor of `iqzip_compression_header`, statement by statement. -/
def construct (storage : HeaderStorage) (cfg : Config) : Construction IqzipCompressionHeader := do
  let h ← encodeHeader (headerMembers storage cfg)
  -- the primary header has no error branch
  let primaryHeader :=
    CcsdsPacketPrimaryHeader.construct storage.primaryHeader cfg.version cfg.type cfg.secHdrFlag
      cfg.apid cfg.sequenceFlags cfg.packetSequenceCount cfg.packetDataLength
  let cip ← encodePacket (packetMembers storage cfg)
  pure { h with dPrimaryHeader := primaryHeader, dCip := cip }

/-! ## What each encoder drops -/

section Encoders

open CompressionIdentificationPacket

variable (c : CompressionIdentificationPacket)

/-- The encoder drops an exception for a status other than 0 and 1. -/
theorem yields_preprocessorStatus (status : U8) :
    Yields (encodePreprocessorStatus status c) (c.orPreprocessor 0 (statusBits status))
      (dropped (status = 0 ∨ status = 1) ⟨"Invalid preprocessor status"⟩) := by
  refine Yields.guarded (c.encodePreprocessorStatus_eq status) fun hv => ?_
  rw [statusBits, if_neg (not_or.mp hv).2]
  exact c.orPreprocessor_zero 0

/-- For a predictor type other than 7, 0 and 1. -/
theorem yields_preprocessorPredictorType (type : U8) :
    Yields (encodePreprocessorPredictorType type c) (c.orPreprocessor 0 (predictorTypeBits type))
      (dropped (type = 7 ∨ type = 0 ∨ type = 1) ⟨"Invalid preprocessor predictor type"⟩) := by
  refine Yields.guarded (c.encodePreprocessorPredictorType_eq type) fun hv => ?_
  rw [predictorTypeBits, if_neg (fun h => hv (Or.inl h)),
    if_neg (fun h => hv (Or.inr (Or.inr h)))]
  exact c.orPreprocessor_zero 0

/-- For a mapper type other than 3 and 0. -/
theorem yields_preprocessorMapperType (type : U8) :
    Yields (encodePreprocessorMapperType type c) (c.orPreprocessor 0 (mapperTypeBits type))
      (dropped (type = 3 ∨ type = 0) ⟨"Invalid preprocessor mapper type"⟩) := by
  refine Yields.guarded (c.encodePreprocessorMapperType_eq type) fun hv => ?_
  rw [mapperTypeBits, if_neg (not_or.mp hv).1]
  exact c.orPreprocessor_zero 0

/-- For a block size of 0. -/
theorem yields_preprocessorBlockSize (size : U16) :
    Yields (encodePreprocessorBlockSize size c)
      (c.orPreprocessor 1 (preprocessorBlockSizeBits size))
      (dropped (¬ size ≤ 0) ⟨"Invalid preprocessor block size"⟩) := by
  refine Yields.guarded (c.encodePreprocessorBlockSize_eq size) fun hv => ?_
  have hzero : size = 0 := by bv_omega
  simp [preprocessorBlockSizeBits, hzero]

/-- For a data sense other than 1 and 0. -/
theorem yields_preprocessorDataSense (dataSense : U8) :
    Yields (encodePreprocessorDataSense dataSense c) (c.orPreprocessor 1 (dataSenseBits dataSense))
      (dropped (dataSense = 1 ∨ dataSense = 0) ⟨"Invalid preprocessor data sense"⟩) := by
  refine Yields.guarded (c.encodePreprocessorDataSense_eq dataSense) fun hv => ?_
  rw [dataSenseBits, if_neg (not_or.mp hv).1]
  exact c.orPreprocessor_zero 1

/-- For a sample resolution outside 1 to 32. -/
theorem yields_preprocessorSampleResolution (resolution : U8) :
    Yields (encodePreprocessorSampleResolution resolution c)
      (c.orPreprocessor 1 (sampleResolutionBits resolution))
      (dropped (resolution ≥ 1 ∧ resolution ≤ 32)
        ⟨"Invalid preprocessor sample resolution"⟩) := by
  refine Yields.guarded (c.encodePreprocessorSampleResolution_eq resolution) fun hv => ?_
  rw [sampleResolutionBits, if_neg hv]
  exact c.orPreprocessor_zero 1

/-- For a sample resolution of 0. -/
theorem yields_entropyCoderResolutionRange (resolution : U8) :
    Yields (encodeEntropyCoderResolutionRange resolution c)
      (c.orEntropyCoder 0 (resolutionRangeBits resolution))
      (dropped (¬ resolution ≤ 0) ⟨"Invalid entropy coder resolution range"⟩) := by
  refine Yields.guarded (c.encodeEntropyCoderResolutionRange_eq resolution) fun hv => ?_
  have hzero : resolution = 0 := by bv_omega
  simp [resolutionRangeBits, hzero]

/-- For a number of coded data sets outside 1 to 4096. -/
theorem yields_entropyCoderCdsNum (num : U16) :
    Yields (encodeEntropyCoderCdsNum num c) (c.encodeEntropyCoderCdsNum num)
      (dropped (num ≥ 1 ∧ num ≤ 4096) ⟨"Invalid entropy coder resolution range"⟩) := by
  refine Yields.guarded rfl fun hv => ?_
  rw [CompressionIdentificationPacket.encodeEntropyCoderCdsNum, if_neg hv, unthrown_eq]

/-- For a block size of 0 again. -/
theorem yields_extendedParametersBlockSize (size : U16) :
    Yields (encodeExtendedParametersBlockSize size c)
      (c.orExtendedParameters 0 (extendedBlockSizeBits size))
      (dropped (¬ size ≤ 0) ⟨"Invalid extended parameters block size"⟩) := by
  refine Yields.guarded (c.encodeExtendedParametersBlockSize_eq size) fun hv => ?_
  have hzero : size = 0 := by bv_omega
  simp [extendedBlockSizeBits, hzero]

/-- For a restricted code option other than 0 and 1. -/
theorem yields_extendedParametersRestrictedCodeOption (option : U8) :
    Yields (encodeExtendedParametersRestrictedCodeOption option c)
      (c.orExtendedParameters 1 (restrictedCodeBits option))
      (dropped (option = 0 ∨ option = 1)
        ⟨"Invalid extended parameters restricted code option"⟩) := by
  refine Yields.guarded (c.encodeExtendedParametersRestrictedCodeOption_eq option) fun hv => ?_
  rw [restrictedCodeBits, if_neg (not_or.mp hv).2]
  exact c.orExtendedParameters_zero 1

end Encoders

/-! ## What the constructors drop -/

/-- The messages of `encode_preprocessor`. -/
def preprocessorMessages (cfg : Config) : List RuntimeError :=
  dropped (cfg.preprocessorStatus = 0 ∨ cfg.preprocessorStatus = 1)
      ⟨"Invalid preprocessor status"⟩
    ++ (dropped (cfg.predictorType = 7 ∨ cfg.predictorType = 0 ∨ cfg.predictorType = 1)
      ⟨"Invalid preprocessor predictor type"⟩
    ++ (dropped (cfg.mapperType = 3 ∨ cfg.mapperType = 0) ⟨"Invalid preprocessor mapper type"⟩
    ++ (dropped (¬ cfg.blockSize ≤ 0) ⟨"Invalid preprocessor block size"⟩
    ++ (dropped (cfg.dataSense = 1 ∨ cfg.dataSense = 0) ⟨"Invalid preprocessor data sense"⟩
    ++ dropped (cfg.sampleResolution ≥ 1 ∧ cfg.sampleResolution ≤ 32)
      ⟨"Invalid preprocessor sample resolution"⟩))))

/-- The messages of `encode_entropy_coder`. -/
def entropyCoderMessages (cfg : Config) : List RuntimeError :=
  dropped (¬ cfg.sampleResolution ≤ 0) ⟨"Invalid entropy coder resolution range"⟩
    ++ dropped (cfg.cdsPerPacket ≥ 1 ∧ cfg.cdsPerPacket ≤ 4096)
      ⟨"Invalid entropy coder resolution range"⟩

/-- The messages of `encode_extended_parameters`. -/
def extendedParametersMessages (cfg : Config) : List RuntimeError :=
  dropped (¬ cfg.blockSize ≤ 0) ⟨"Invalid extended parameters block size"⟩
    ++ dropped (cfg.restrictedCodes = 0 ∨ cfg.restrictedCodes = 1)
      ⟨"Invalid extended parameters restricted code option"⟩

/-- The messages of `iqzip_compression_header::encode`; a 16-bit block size never earns one. -/
def headerMessages (cfg : Config) : List RuntimeError :=
  dropped (cfg.endianness = 1 ∨ cfg.endianness = 0) ⟨"Invalid IQzip header endianess"⟩

/-- The exceptions that the constructor builds and drops, in their order. -/
def droppedBy (cfg : Config) : List RuntimeError :=
  headerMessages cfg
    ++ (preprocessorMessages cfg ++ (entropyCoderMessages cfg ++ extendedParametersMessages cfg))

/-- **An exception is built for an invalid argument and for no other.** -/
theorem droppedBy_eq_nil_iff (cfg : Config) : droppedBy cfg = [] ↔ cfg.Legal := by
  have hblock : ¬ cfg.blockSize ≤ 0 ↔ cfg.blockSize ≠ 0 := by
    generalize cfg.blockSize = b
    bv_omega
  have hres : ¬ cfg.sampleResolution ≤ 0 ↔ cfg.sampleResolution ≥ 1 := by
    generalize cfg.sampleResolution = r
    bv_omega
  simp only [droppedBy, headerMessages, preprocessorMessages, entropyCoderMessages,
    extendedParametersMessages, List.append_eq_nil_iff, dropped_eq_nil_iff, hblock, hres]
  constructor
  · rintro ⟨hendian, ⟨hstatus, hpred, hmap, hbs, hsense, hr⟩, ⟨-, hcds⟩, -, hcodes⟩
    exact ⟨hstatus, or_assoc.mp hpred.symm, hmap.symm, hbs, hsense.symm, hr, hcds, hcodes,
      hendian.symm⟩
  · rintro ⟨hstatus, hpred, hmap, hbs, hsense, hr, hcds, hcodes, hendian⟩
    exact ⟨hendian.symm, ⟨hstatus, (or_assoc.mpr hpred).symm, hmap.symm, hbs, hsense.symm, hr⟩,
      ⟨hr.1, hcds⟩, hbs, hcodes⟩

/-- The object holds the constructor arguments of `cfg`, over some packed bytes. -/
def HasMembers (cfg : Config) (c : CompressionIdentificationPacket) : Prop :=
  ∃ storage, c = packetMembers storage cfg

section Constructors

open CompressionIdentificationPacket

variable {cfg : Config} {c : CompressionIdentificationPacket}

/-- The Preprocessor subfield: every setter works on the value of the one before, and none touches
the members the later ones read. -/
theorem yields_preprocessor (hc : HasMembers cfg c) :
    Yields (encodePreprocessor c) c.encodePreprocessor (preprocessorMessages cfg)
      ∧ HasMembers cfg c.encodePreprocessor := by
  obtain ⟨storage, rfl⟩ := hc
  have hvalue : ∀ c : CompressionIdentificationPacket, c.encodePreprocessor
      = (((((c.encodePreprocessorHeader.orPreprocessor 0
        (statusBits c.dPreprocessorStatus)).orPreprocessor 0
        (predictorTypeBits c.dPredictorType)).orPreprocessor 0
        (mapperTypeBits c.dMapperType)).orPreprocessor 1
        (preprocessorBlockSizeBits c.dBlockSize)).orPreprocessor 1
        (dataSenseBits c.dDataSense)).orPreprocessor 1
        (sampleResolutionBits c.dSampleResolution) := by
    intro c
    simp only [CompressionIdentificationPacket.encodePreprocessor, encodePreprocessorStatus_eq,
      encodePreprocessorPredictorType_eq, encodePreprocessorMapperType_eq,
      encodePreprocessorBlockSize_eq, encodePreprocessorDataSense_eq,
      encodePreprocessorSampleResolution_eq, encodePreprocessorHeader, orPreprocessor]
  rw [hvalue]
  constructor
  · exact (yields_preprocessorStatus _ _).bind ((yields_preprocessorPredictorType _ _).bind
      ((yields_preprocessorMapperType _ _).bind ((yields_preprocessorBlockSize _ _).bind
      ((yields_preprocessorDataSense _ _).bind (yields_preprocessorSampleResolution _ _)))))
  · exact ⟨{ storage with sourceDataVariable := _ }, rfl⟩

/-- The Entropy Coder subfield. -/
theorem yields_entropyCoder (hc : HasMembers cfg c) :
    Yields (encodeEntropyCoder c) c.encodeEntropyCoder (entropyCoderMessages cfg)
      ∧ HasMembers cfg c.encodeEntropyCoder := by
  obtain ⟨storage, rfl⟩ := hc
  have hvalue : ∀ c : CompressionIdentificationPacket, c.encodeEntropyCoder
      = (c.encodeEntropyCoderHeader.orEntropyCoder 0
        (resolutionRangeBits c.dSampleResolution)).encodeEntropyCoderCdsNum c.dCdsPerPacket := by
    intro c
    simp only [CompressionIdentificationPacket.encodeEntropyCoder,
      encodeEntropyCoderResolutionRange_eq, encodeEntropyCoderHeader, orEntropyCoder]
  rw [hvalue]
  constructor
  · exact (yields_entropyCoderResolutionRange _ _).bind (yields_entropyCoderCdsNum _ _)
  · obtain ⟨e, he⟩ := encodeEntropyCoderCdsNum_frame
      ((packetMembers storage cfg).encodeEntropyCoderHeader.orEntropyCoder 0
        (resolutionRangeBits (packetMembers storage cfg).dSampleResolution))
      (packetMembers storage cfg).dCdsPerPacket
    rw [he]
    exact ⟨{ storage with sourceDataVariable := _ }, rfl⟩

/-- The Extended Parameters subfield. -/
theorem yields_extendedParameters (hc : HasMembers cfg c) :
    Yields (encodeExtendedParameters c) c.encodeExtendedParameters
      (extendedParametersMessages cfg) := by
  obtain ⟨storage, rfl⟩ := hc
  have hvalue : ∀ c : CompressionIdentificationPacket, c.encodeExtendedParameters
      = ((c.clearExtendedParameters.encodeExtendedParametersHeader.orExtendedParameters 0
        (extendedBlockSizeBits c.dBlockSize)).orExtendedParameters 1
        (restrictedCodeBits
          c.dRestrictedCodes)).encodeExtendedParametersReferenceSampleInterval
          c.dReferenceSampleInterval := by
    intro c
    simp only [CompressionIdentificationPacket.encodeExtendedParameters,
      encodeExtendedParametersBlockSize_eq, encodeExtendedParametersRestrictedCodeOption_eq,
      encodeExtendedParametersHeader, clearExtendedParameters, orExtendedParameters]
  rw [hvalue]
  exact (yields_extendedParametersBlockSize _ _).bind
    ((yields_extendedParametersRestrictedCodeOption _ _).map _)

/-- The Instrument Configuration subfield holds no argument. -/
theorem HasMembers.encodeInstrumentConfiguration (hc : HasMembers cfg c) :
    HasMembers cfg c.encodeInstrumentConfiguration := by
  obtain ⟨storage, rfl⟩ := hc
  exact ⟨{ storage with sourceDataVariable := _ }, rfl⟩

/-- The whole packet, in the order of its `encode()`. -/
theorem yields_packet (storage : HeaderStorage) :
    Yields (encodePacket (packetMembers storage cfg)) (packetMembers storage cfg).encode
      (preprocessorMessages cfg
        ++ (entropyCoderMessages cfg ++ extendedParametersMessages cfg)) := by
  have hfixed : HasMembers cfg
      ((((packetMembers storage cfg).encodeGroupingDataLength
        cfg.groupingDataLength).encodeCompressionTechniqueId
        cfg.compressionTechId).encodeReferenceSampleInterval cfg.referenceSampleInterval) :=
    ⟨{ storage with sourceDataFixed := _ }, rfl⟩
  obtain ⟨hpre, hpre'⟩ := yields_preprocessor hfixed
  obtain ⟨hent, hent'⟩ := yields_entropyCoder hpre'
  exact hpre.bind (hent.bind (yields_extendedParameters hent'.encodeInstrumentConfiguration))

end Constructors

section Header

open IqzipCompressionHeader

/-- The setter of the endianness. -/
theorem yields_iqzipHeaderEndianness (h : IqzipCompressionHeader) (endianness : U8) :
    Yields (encodeIqzipHeaderEndianness endianness h) (h.encodeIqzipHeaderEndianness endianness)
      (dropped (endianness = 1 ∨ endianness = 0) ⟨"Invalid IQzip header endianess"⟩) := by
  refine Yields.guarded rfl fun hv => ?_
  rw [not_or] at hv
  rw [IqzipCompressionHeader.encodeIqzipHeaderEndianness, if_neg hv.1, if_neg hv.2, unthrown_eq]

/-- The setter of the block size, which no 16-bit size makes build an exception. -/
theorem yields_iqzipHeaderBlockSize (h : IqzipCompressionHeader) (size : U16) :
    Yields (encodeIqzipHeaderBlockSize size.toNat h) (h.encodeIqzipHeaderBlockSize size.toNat)
      [] := by
  have hsize : ¬ size.toNat > 65535 := by
    have := size.isLt
    omega
  have hyields : Yields (encodeIqzipHeaderBlockSize size.toNat h)
      (h.encodeIqzipHeaderBlockSize size.toNat)
      (dropped (¬ size.toNat > 65535) ⟨"Invalid IQzip header block size"⟩) :=
    Yields.guarded rfl fun hv => absurd hsize hv
  rwa [(dropped_eq_nil_iff _ _).mpr hsize] at hyields

/-- The extension header. -/
theorem yields_header (h : IqzipCompressionHeader) :
    Yields (encodeHeader h) h.encode
      (dropped (h.dEndianness = 1 ∨ h.dEndianness = 0)
        ⟨"Invalid IQzip header endianess"⟩) := by
  have hsize : h.dBlockSize.toNat ≤ 65535 := by
    have := h.dBlockSize.isLt
    omega
  have hkeep : (h.encodeIqzipHeaderBlockSize h.dBlockSize.toNat).dEndianness = h.dEndianness := by
    rw [encodeIqzipHeaderBlockSize_eq h hsize]
  rw [← hkeep]
  exact (yields_iqzipHeaderBlockSize h h.dBlockSize).bind
    ((yields_iqzipHeaderEndianness _ _).map _)

variable (storage : HeaderStorage) (cfg : Config)

/-- `encode()` of the header neither reads nor writes its two objects. -/
theorem encode_withObjects (h : IqzipCompressionHeader) (p : CcsdsPacketPrimaryHeader)
    (c : CompressionIdentificationPacket) :
    IqzipCompressionHeader.encode { h with dPrimaryHeader := p, dCip := c }
      = { h.encode with dPrimaryHeader := p, dCip := c } := by
  have hsize : h.dBlockSize.toNat ≤ 65535 := by
    have := h.dBlockSize.isLt
    omega
  simp only [IqzipCompressionHeader.encode, encodeIqzipHeaderBlockSize_eq _ hsize,
    IqzipCompressionHeader.encodeIqzipHeaderEndianness, unthrown_eq]
  split_ifs <;> rfl

/-- So the order in which the constructor makes them does not matter to the value. -/
theorem construct_eq :
    IqzipCompressionHeader.construct storage cfg
      = { (headerMembers storage cfg).encode with
        dPrimaryHeader :=
          CcsdsPacketPrimaryHeader.construct storage.primaryHeader cfg.version cfg.type
            cfg.secHdrFlag cfg.apid cfg.sequenceFlags cfg.packetSequenceCount cfg.packetDataLength
        dCip := (packetMembers storage cfg).encode } :=
  encode_withObjects (headerMembers storage cfg) _ _

/-- **What the constructor does.** It throws nothing, its object is the one of the plain
constructor, and it drops one exception for each test an argument fails. -/
theorem construct_yields :
    Yields (construct storage cfg) (IqzipCompressionHeader.construct storage cfg)
      (droppedBy cfg) := by
  rw [construct_eq]
  exact (yields_header (headerMembers storage cfg)).bind ((yields_packet storage).map _)

end Header

end Construction

/-! ## Rejection -/

/-- The constructor raises `std::runtime_error`. -/
def Raises (storage : HeaderStorage) (cfg : Config) : Prop :=
  ∃ e, (Construction.construct storage cfg).run [] = .error e

/-- Some file is written as the header of the constructed object. -/
def WritesHeader (storage : HeaderStorage) (cfg : Config) : Prop :=
  ∃ h es, (Construction.construct storage cfg).run [] = .ok (h, es)
    ∧ ∃ fs path fs', h.writeHeaderToFile fs path = .ok fs'

/-- **Rejection at construction.** For every argument tuple and every storage: the constructor
raises if and only if an argument is invalid, and no header is written for an invalid configuration,
exactly when no argument is invalid. -/
theorem construct_rejects_iff (storage : HeaderStorage) (cfg : Config) :
    ((Raises storage cfg ↔ ¬ cfg.Legal) ∧ (WritesHeader storage cfg → cfg.Legal)) ↔ cfg.Legal := by
  have hyields := Construction.construct_yields storage cfg
  have hraises : ¬ Raises storage cfg := fun ⟨e, he⟩ => hyields.ne_error e he
  constructor
  · rintro ⟨hiff, -⟩
    by_contra hillegal
    exact hraises (hiff.mpr hillegal)
  · intro legal
    exact ⟨⟨fun h => absurd h hraises, fun h => absurd legal h⟩, fun _ => legal⟩

/-- **Nothing is rejected.** A preprocessor status of 2, the CDS count 0 and an endianness of 7 are
invalid: three exceptions are built, none is thrown, and the header is written. -/
theorem construct_accepts_invalid :
    let cfg := { commandLineConfig 2 7 1 0 8 1 64 with cdsPerPacket := 0 }
    ¬ cfg.Legal ∧ ¬ Raises .zero cfg ∧ WritesHeader .zero cfg
      ∧ Construction.droppedBy cfg
        = [⟨"Invalid IQzip header endianess"⟩, ⟨"Invalid preprocessor status"⟩,
          ⟨"Invalid entropy coder resolution range"⟩] := by
  intro cfg
  have hyields := Construction.construct_yields .zero cfg
  refine ⟨by decide, fun ⟨e, he⟩ => hyields.ne_error e he, ⟨_, _, hyields [], ?_⟩, by decide⟩
  exact ⟨FileSystem.empty, "out.iqz", _, rfl⟩

end IQzip
