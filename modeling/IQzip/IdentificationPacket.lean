import IQzip.CcsdsTypes

/-! # The Compression Identification Packet

`compression_identification_packet`: the fixed part of the source data field (four bytes) and the
Preprocessor, Entropy Coder, Instrument Configuration and Extended Parameters subfields. Most
setters OR their bits into the byte; only the Extended Parameters bytes are cleared first. The
`params` pointer of the Instrument Configuration subfield is left out: nothing reads or writes
it. -/

namespace IQzip

/-- `SOURCE_DATA_FIXED_SIZE`. -/
def sourceDataFixedSize : Nat := 4

/-- `PREPROCESSOR_SUBFIELD_SIZE`. -/
def preprocessorSubfieldSize : Nat := 2

/-- `ENTROPY_CODER_SUBFIELD_SIZE`. -/
def entropyCoderSubfieldSize : Nat := 2

/-- `EXTENDED_PARAMETERS_SUBFIELD_SIZE`. -/
def extendedParametersSubfieldSize : Nat := 2

/-- `MAX_CIP_HEADER_SIZE_BYTES`: the packet without Secondary header and Instrument
Configuration. -/
def maxCipHeaderSizeBytes : Nat := 16

/-- `PREPROCESSOR_STATUS_MASK`. -/
def preprocessorStatusMask : U8 := 0x20

/-- `PREPROCESSOR_PREDICTOR_TYPE_MASK`. -/
def preprocessorPredictorTypeMask : U8 := 0x1c

/-- `PREPROCESSOR_MAPPER_TYPE_MASK`. -/
def preprocessorMapperTypeMask : U8 := 0x3

/-- `PREPROCESSOR_BLOCK_SIZE_MASK`. -/
def preprocessorBlockSizeMask : U8 := 0xc0

/-- `PREPROCESSOR_DATA_SENSE_MASK`. -/
def preprocessorDataSenseMask : U8 := 0x20

/-- `PREPROCESSOR_SAMPLE_RESOLUTION_MASK`. -/
def preprocessorSampleResolutionMask : U8 := 0x1f

/-- `ENTROPY_CODER_CDSES_NUM_MASK`. -/
def entropyCoderCdsesNumMask : U16 := 0xfff

/-- `EXTENDED_PARAMETERS_BLOCK_SIZE_MASK`. -/
def extendedParametersBlockSizeMask : U8 := 0xf

/-- `EXTENDED_PARAMETERS_RESTRICTED_CODES_MASK`. -/
def extendedParametersRestrictedCodesMask : U8 := 0x40

/-- `EXTENDED_PARAMETERS_REFERENCE_SAMPLE_INTERVAL_MASK`. -/
def extendedParametersReferenceSampleIntervalMask : U8 := 0xf

/-- `source_data_fixed_t`. -/
abbrev SourceDataFixed := Vector U8 4

/-- `source_data_variable_t`. -/
structure SourceDataVariable where
  preprocessor : Vector U8 2
  entropyCoder : Vector U8 2
  extendedParameters : Vector U8 2
  /-- `instrument_config.header`, two bits that are written but never read. -/
  instrumentConfigHeader : BitVec 2

/-- `compression_identification_packet`: the constructor arguments it keeps and the two packed
fields. -/
structure CompressionIdentificationPacket where
  dGroupingDataLength : U16
  dCompressionTechId : U8
  dReferenceSampleInterval : U8
  dPreprocessorStatus : U8
  dPredictorType : U8
  dMapperType : U8
  dSampleResolution : U8
  dDataSense : U8
  dRestrictedCodes : U8
  dBlockSize : U16
  dCdsPerPacket : U16
  dSourceDataFixed : SourceDataFixed
  dSourceDataVariable : SourceDataVariable

namespace CompressionIdentificationPacket

/-! ## Writing one byte -/

/-- `d_source_data_fixed.get i |= bits`. -/
def orFixed (c : CompressionIdentificationPacket) (i : Fin 4) (bits : U8) :
    CompressionIdentificationPacket :=
  { c with dSourceDataFixed := c.dSourceDataFixed.assign i (c.dSourceDataFixed.get i ||| bits) }

/-- `d_source_data_fixed.get i = value`. -/
def setFixed (c : CompressionIdentificationPacket) (i : Fin 4) (value : U8) :
    CompressionIdentificationPacket :=
  { c with dSourceDataFixed := c.dSourceDataFixed.assign i value }

/-- `d_source_data_variable.preprocessor.get i |= bits`. -/
def orPreprocessor (c : CompressionIdentificationPacket) (i : Fin 2) (bits : U8) :
    CompressionIdentificationPacket :=
  let v := c.dSourceDataVariable
  { c with dSourceDataVariable :=
      { v with preprocessor := v.preprocessor.assign i (v.preprocessor.get i ||| bits) } }

/-- `d_source_data_variable.entropy_coder.get i |= bits`. -/
def orEntropyCoder (c : CompressionIdentificationPacket) (i : Fin 2) (bits : U8) :
    CompressionIdentificationPacket :=
  let v := c.dSourceDataVariable
  { c with dSourceDataVariable :=
      { v with entropyCoder := v.entropyCoder.assign i (v.entropyCoder.get i ||| bits) } }

/-- `d_source_data_variable.entropy_coder.get i = value`. -/
def setEntropyCoder (c : CompressionIdentificationPacket) (i : Fin 2) (value : U8) :
    CompressionIdentificationPacket :=
  let v := c.dSourceDataVariable
  { c with dSourceDataVariable := { v with entropyCoder := v.entropyCoder.assign i value } }

/-- `d_source_data_variable.extended_parameters.get i |= bits`. -/
def orExtendedParameters (c : CompressionIdentificationPacket) (i : Fin 2) (bits : U8) :
    CompressionIdentificationPacket :=
  let v := c.dSourceDataVariable
  { c with dSourceDataVariable :=
      { v with extendedParameters :=
          v.extendedParameters.assign i (v.extendedParameters.get i ||| bits) } }

/-! ## Setters -/

/-- `encode_grouping_data_length`. -/
def encodeGroupingDataLength (c : CompressionIdentificationPacket) (length : U16) :
    CompressionIdentificationPacket :=
  let length := length % 4096
  -- byte 0 keeps what it held above the field, byte 1 is assigned
  (c.orFixed 0 ((length >>> 8).setWidth 8)).setFixed 1 (length.setWidth 8)

/-- `encode_compression_technique_id`. -/
def encodeCompressionTechniqueId (c : CompressionIdentificationPacket) (id : U8) :
    CompressionIdentificationPacket :=
  c.setFixed 2 id

/-- The byte `(interval - 1) % 256`, computed in `int` as the source does. -/
def intervalByte (interval : U8) : U8 := BitVec.ofInt 8 (((interval.toNat : Int) - 1).tmod 256)

/-- `encode_reference_sample_interval`. -/
def encodeReferenceSampleInterval (c : CompressionIdentificationPacket) (interval : U8) :
    CompressionIdentificationPacket :=
  c.setFixed 3 (intervalByte interval)

/-- `encode_preprocessor_header`. -/
def encodePreprocessorHeader (c : CompressionIdentificationPacket) :
    CompressionIdentificationPacket :=
  c.orPreprocessor 0 (SourceConfigurationSubfieldHeader.preprocessor.toU8 <<< 6)

/-- `encode_preprocessor_status`. -/
def encodePreprocessorStatus (c : CompressionIdentificationPacket) (status : U8) :
    CompressionIdentificationPacket :=
  if status = 0 then c.orPreprocessor 0 (PreprocessorStatus.absent.toU8 <<< 5)
  else if status = 1 then c.orPreprocessor 0 (PreprocessorStatus.present.toU8 <<< 5)
  else unthrown ⟨"Invalid preprocessor status"⟩ c

/-- `encode_preprocessor_predictor_type`. -/
def encodePreprocessorPredictorType (c : CompressionIdentificationPacket) (type : U8) :
    CompressionIdentificationPacket :=
  if type = 7 then c.orPreprocessor 0 (PreprocessorPredictorType.applicationSpecific.toU8 <<< 2)
  else if type = 0 then c.orPreprocessor 0 (PreprocessorPredictorType.bypass.toU8 <<< 2)
  else if type = 1 then c.orPreprocessor 0 (PreprocessorPredictorType.unitDelay.toU8 <<< 2)
  else unthrown ⟨"Invalid preprocessor predictor type"⟩ c

/-- `encode_preprocessor_mapper_type`. -/
def encodePreprocessorMapperType (c : CompressionIdentificationPacket) (type : U8) :
    CompressionIdentificationPacket :=
  if type = 3 then
    c.orPreprocessor 0
      (PreprocessorMapperType.applicationSpecific.toU8 &&& preprocessorMapperTypeMask)
  else if type = 0 then
    c.orPreprocessor 0 (PreprocessorMapperType.predictionError.toU8 &&& preprocessorMapperTypeMask)
  else unthrown ⟨"Invalid preprocessor mapper type"⟩ c

/-- `encode_preprocessor_block_size`. -/
def encodePreprocessorBlockSize (c : CompressionIdentificationPacket) (size : U16) :
    CompressionIdentificationPacket :=
  if size ≤ 0 then unthrown ⟨"Invalid preprocessor block size"⟩ c
  else if size = 8 then c.orPreprocessor 1 (PreprocessorBlockSize.samples8.toU8 <<< 6)
  else if size = 16 then c.orPreprocessor 1 (PreprocessorBlockSize.samples16.toU8 <<< 6)
  -- one code for two sizes: the Extended Parameters tell them apart
  else if size = 32 ∨ size = 64 then
    c.orPreprocessor 1 (PreprocessorBlockSize.samples32or64.toU8 <<< 6)
  else c.orPreprocessor 1 (PreprocessorBlockSize.applicationSpecific.toU8 <<< 6)

/-- `encode_preprocessor_data_sense`. -/
def encodePreprocessorDataSense (c : CompressionIdentificationPacket) (dataSense : U8) :
    CompressionIdentificationPacket :=
  if dataSense = 1 then c.orPreprocessor 1 (PreprocessorDataSense.positive.toU8 <<< 5)
  else if dataSense = 0 then c.orPreprocessor 1 (PreprocessorDataSense.twoComplement.toU8 <<< 5)
  else unthrown ⟨"Invalid preprocessor data sense"⟩ c

/-- `encode_preprocessor_sample_resolution`. -/
def encodePreprocessorSampleResolution (c : CompressionIdentificationPacket) (resolution : U8) :
    CompressionIdentificationPacket :=
  if resolution ≥ 1 ∧ resolution ≤ 32 then c.orPreprocessor 1 (resolution &&& 0x1f)
  else unthrown ⟨"Invalid preprocessor sample resolution"⟩ c

/-- `encode_entropy_coder_resolution_range`. -/
def encodeEntropyCoderResolutionRange (c : CompressionIdentificationPacket) (resolution : U8) :
    CompressionIdentificationPacket :=
  if resolution ≤ 0 then unthrown ⟨"Invalid entropy coder resolution range"⟩ c
  else if resolution ≤ 8 then
    c.orEntropyCoder 0 (EntropyCoderResolutionRange.lessEqual8.toU8 <<< 4)
  else if resolution ≤ 16 then
    c.orEntropyCoder 0 (EntropyCoderResolutionRange.lessEqual16.toU8 <<< 4)
  else if resolution ≤ 32 then
    c.orEntropyCoder 0 (EntropyCoderResolutionRange.lessEqual32.toU8 <<< 4)
  else c.orEntropyCoder 0 (EntropyCoderResolutionRange.spare.toU8 <<< 4)

/-- `encode_entropy_coder_cds_num`. -/
def encodeEntropyCoderCdsNum (c : CompressionIdentificationPacket) (num : U16) :
    CompressionIdentificationPacket :=
  -- 4096 is accepted, but its thirteenth bit is masked away
  if num ≥ 1 ∧ num ≤ 4096 then
    (c.orEntropyCoder 0
      (((num >>> 8) &&& (entropyCoderCdsesNumMask >>> 8)).setWidth 8)).setEntropyCoder
      1 (num.setWidth 8)
  -- the text is that of the resolution range, as in the source
  else unthrown ⟨"Invalid entropy coder resolution range"⟩ c

/-- `encode_instrument_configuration_header`. -/
def encodeInstrumentConfigurationHeader (c : CompressionIdentificationPacket) :
    CompressionIdentificationPacket :=
  { c with dSourceDataVariable :=
      { c.dSourceDataVariable with
        instrumentConfigHeader :=
          SourceConfigurationSubfieldHeader.instrumentConfiguration.toU8.setWidth 2 } }

/-- `encode_extended_parameters_header`. -/
def encodeExtendedParametersHeader (c : CompressionIdentificationPacket) :
    CompressionIdentificationPacket :=
  c.orExtendedParameters 0 (SourceConfigurationSubfieldHeader.extendedParameters.toU8 <<< 6)

/-- `encode_extended_parameters_block_size`. -/
def encodeExtendedParametersBlockSize (c : CompressionIdentificationPacket) (size : U16) :
    CompressionIdentificationPacket :=
  if size ≤ 0 then unthrown ⟨"Invalid extended parameters block size"⟩ c
  else if size = 8 then c.orExtendedParameters 0 ExtendedParametersBlockSize.samples8.toU8
  else if size = 16 then c.orExtendedParameters 0 ExtendedParametersBlockSize.samples16.toU8
  else if size = 32 then c.orExtendedParameters 0 ExtendedParametersBlockSize.samples32.toU8
  else if size = 64 then c.orExtendedParameters 0 ExtendedParametersBlockSize.samples64.toU8
  else c.orExtendedParameters 0 ExtendedParametersBlockSize.applicationSpecific.toU8

/-- `encode_entropy_coder_header`. -/
def encodeEntropyCoderHeader (c : CompressionIdentificationPacket) :
    CompressionIdentificationPacket :=
  c.orEntropyCoder 0 (SourceConfigurationSubfieldHeader.entropyCoder.toU8 <<< 6)

/-- `encode_extended_parameters_restricted_code_option`. -/
def encodeExtendedParametersRestrictedCodeOption (c : CompressionIdentificationPacket)
    (option : U8) : CompressionIdentificationPacket :=
  if option = 0 then
    c.orExtendedParameters 1 (ExtendedParametersRestrictedCodes.basic.toU8 <<< 6)
  else if option = 1 then
    c.orExtendedParameters 1 (ExtendedParametersRestrictedCodes.restricted.toU8 <<< 6)
  else unthrown ⟨"Invalid extended parameters restricted code option"⟩ c

/-- `encode_extended_parameters_reference_sample_interval`. The value passes through `floor`, which
changes no integer; for an interval of 0 the conversion of `-1.0` is taken modulo 256. -/
def encodeExtendedParametersReferenceSampleInterval (c : CompressionIdentificationPacket)
    (interval : U8) : CompressionIdentificationPacket :=
  c.orExtendedParameters 1 (intervalByte interval &&& extendedParametersReferenceSampleIntervalMask)

/-- `encode_preprocessor`. -/
def encodePreprocessor (c : CompressionIdentificationPacket) : CompressionIdentificationPacket :=
  let c := c.encodePreprocessorHeader
  let c := c.encodePreprocessorStatus c.dPreprocessorStatus
  let c := c.encodePreprocessorPredictorType c.dPredictorType
  let c := c.encodePreprocessorMapperType c.dMapperType
  let c := c.encodePreprocessorBlockSize c.dBlockSize
  let c := c.encodePreprocessorDataSense c.dDataSense
  c.encodePreprocessorSampleResolution c.dSampleResolution

/-- `encode_entropy_coder`. -/
def encodeEntropyCoder (c : CompressionIdentificationPacket) : CompressionIdentificationPacket :=
  let c := c.encodeEntropyCoderHeader
  let c := c.encodeEntropyCoderResolutionRange c.dSampleResolution
  c.encodeEntropyCoderCdsNum c.dCdsPerPacket

/-- `encode_instrument_configuration`. -/
def encodeInstrumentConfiguration (c : CompressionIdentificationPacket) :
    CompressionIdentificationPacket :=
  c.encodeInstrumentConfigurationHeader

/-- `memset(&d_source_data_variable.extended_parameters, 0, …)`. -/
def clearExtendedParameters (c : CompressionIdentificationPacket) :
    CompressionIdentificationPacket :=
  { c with dSourceDataVariable :=
      { c.dSourceDataVariable with extendedParameters := bytes2 0 0 } }

/-- `encode_extended_parameters`. -/
def encodeExtendedParameters (c : CompressionIdentificationPacket) :
    CompressionIdentificationPacket :=
  let c := c.clearExtendedParameters
  let c := c.encodeExtendedParametersHeader
  let c := c.encodeExtendedParametersBlockSize c.dBlockSize
  let c := c.encodeExtendedParametersRestrictedCodeOption c.dRestrictedCodes
  c.encodeExtendedParametersReferenceSampleInterval c.dReferenceSampleInterval

/-- `encode()`. -/
def encode (c : CompressionIdentificationPacket) : CompressionIdentificationPacket :=
  let c := c.encodeGroupingDataLength c.dGroupingDataLength
  let c := c.encodeCompressionTechniqueId c.dCompressionTechId
  let c := c.encodeReferenceSampleInterval c.dReferenceSampleInterval
  let c := c.encodePreprocessor
  let c := c.encodeEntropyCoder
  let c := c.encodeInstrumentConfiguration
  c.encodeExtendedParameters

/-- The constructor with arguments, over the bytes the object is built on. -/
def construct (fixed : SourceDataFixed) (variable_ : SourceDataVariable) (groupingDataLength : U16)
    (compressionTechId referenceSampleInterval preprocessorStatus predictorType mapperType : U8)
    (blockSize : U16) (dataSense sampleResolution : U8) (csdPerPacket : U16)
    (restrictedCodes : U8) : CompressionIdentificationPacket :=
  encode
    { dGroupingDataLength := groupingDataLength
      dCompressionTechId := compressionTechId
      dReferenceSampleInterval := referenceSampleInterval
      dPreprocessorStatus := preprocessorStatus
      dPredictorType := predictorType
      dMapperType := mapperType
      dSampleResolution := sampleResolution
      dDataSense := dataSense
      dRestrictedCodes := restrictedCodes
      dBlockSize := blockSize
      dCdsPerPacket := csdPerPacket
      dSourceDataFixed := fixed
      dSourceDataVariable := variable_ }

/-- The default constructor: the scalar members are zero, the packed bytes are left alone. -/
def default (fixed : SourceDataFixed) (variable_ : SourceDataVariable) :
    CompressionIdentificationPacket :=
  { dGroupingDataLength := 0
    dCompressionTechId := 0
    dReferenceSampleInterval := 0
    dPreprocessorStatus := 0
    dPredictorType := 0
    dMapperType := 0
    dSampleResolution := 0
    dDataSense := 0
    dRestrictedCodes := 0
    dBlockSize := 0
    dCdsPerPacket := 0
    dSourceDataFixed := fixed
    dSourceDataVariable := variable_ }

/-- `set_source_data_fixed`. -/
def setSourceDataFixed (c : CompressionIdentificationPacket) (hdr : SourceDataFixed) :
    CompressionIdentificationPacket :=
  { c with dSourceDataFixed := hdr }

/-- `set_source_data_variable`. -/
def setSourceDataVariable (c : CompressionIdentificationPacket) (hdr : SourceDataVariable) :
    CompressionIdentificationPacket :=
  { c with dSourceDataVariable := hdr }

/-! ## Getters -/

/-- `decode_grouping_data_length`. -/
def decodeGroupingDataLength (c : CompressionIdentificationPacket) : U16 :=
  (c.dSourceDataFixed.get 1).setWidth 16 ||| ((c.dSourceDataFixed.get 0).setWidth 16 <<< 8)

/-- `decode_compression_technique_id`. -/
def decodeCompressionTechniqueId (c : CompressionIdentificationPacket) : U8 :=
  c.dSourceDataFixed.get 2

/-- `decode_reference_sample_interval`. -/
def decodeReferenceSampleInterval (c : CompressionIdentificationPacket) : U8 :=
  c.dSourceDataFixed.get 3 + 1

/-- `decode_preprocessor_status`. -/
def decodePreprocessorStatus (c : CompressionIdentificationPacket) : U8 :=
  (c.dSourceDataVariable.preprocessor.get 0 &&& preprocessorStatusMask) >>> 5

/-- `decode_preprocessor_predictor_type`. -/
def decodePreprocessorPredictorType (c : CompressionIdentificationPacket) : U8 :=
  (c.dSourceDataVariable.preprocessor.get 0 &&& preprocessorPredictorTypeMask) >>> 2

/-- `decode_preprocessor_mapper_type`. -/
def decodePreprocessorMapperType (c : CompressionIdentificationPacket) : U8 :=
  c.dSourceDataVariable.preprocessor.get 0 &&& preprocessorMapperTypeMask

/-- `decode_preprocessor_data_sense`. -/
def decodePreprocessorDataSense (c : CompressionIdentificationPacket) : U8 :=
  (c.dSourceDataVariable.preprocessor.get 1 &&& preprocessorDataSenseMask) >>> 5

/-- `decode_preprocessor_sample_resolution`. -/
def decodePreprocessorSampleResolution (c : CompressionIdentificationPacket) : U8 :=
  c.dSourceDataVariable.preprocessor.get 1 &&& preprocessorSampleResolutionMask

/-- `decode_preprocessor_block_size`: 0 means that the size is coded in a later subfield. -/
def decodePreprocessorBlockSize (c : CompressionIdentificationPacket) : U16 :=
  let code := (c.dSourceDataVariable.preprocessor.get 1 &&& preprocessorBlockSizeMask) >>> 6
  if code = PreprocessorBlockSize.samples8.toU8 then 8
  else if code = PreprocessorBlockSize.samples16.toU8 then 16
  else if code = PreprocessorBlockSize.samples32or64.toU8
      ∨ code = PreprocessorBlockSize.applicationSpecific.toU8 then 0
  else unthrown ⟨"Invalid preprocessor block size code"⟩ 0

/-- `decode_extended_parameters_block_size`: 0 means application specific, and also stands for the
codes the source calls invalid. -/
def decodeExtendedParametersBlockSize (c : CompressionIdentificationPacket) : U16 :=
  let code := c.dSourceDataVariable.extendedParameters.get 0 &&& extendedParametersBlockSizeMask
  if code = ExtendedParametersBlockSize.samples8.toU8 then 8
  else if code = ExtendedParametersBlockSize.samples16.toU8 then 16
  else if code = ExtendedParametersBlockSize.samples32.toU8 then 32
  else if code = ExtendedParametersBlockSize.samples64.toU8 then 64
  else if code = ExtendedParametersBlockSize.applicationSpecific.toU8 then 0
  else unthrown ⟨"Invalid extended parameters block size code"⟩ 0

/-- `decode_extended_parameters_reference_sample_interval`. -/
def decodeExtendedParametersReferenceSampleInterval (c : CompressionIdentificationPacket) : U8 :=
  c.dSourceDataVariable.extendedParameters.get 1 &&& extendedParametersReferenceSampleIntervalMask

/-- `decode_extended_parameters_restricted_code_option`: the masked bit, not shifted down. -/
def decodeExtendedParametersRestrictedCodeOption (c : CompressionIdentificationPacket) : U8 :=
  c.dSourceDataVariable.extendedParameters.get 1 &&& extendedParametersRestrictedCodesMask

/-! ## What the setters OR in

Each setter of the Preprocessor, Entropy Coder and Extended Parameters subfields ORs a word into
one byte, zero for a value it rejects. Stating that word once turns every setter into
`orPreprocessor`, `orEntropyCoder` or `orExtendedParameters`. -/

/-- The bits of `encode_preprocessor_status`. -/
def statusBits (status : U8) : U8 := if status = 1 then 0x20 else 0

/-- The bits of `encode_preprocessor_predictor_type`. -/
def predictorTypeBits (type : U8) : U8 := if type = 7 then 0x1c else if type = 1 then 0x04 else 0

/-- The bits of `encode_preprocessor_mapper_type`. -/
def mapperTypeBits (type : U8) : U8 := if type = 3 then 0x3 else 0

/-- The bits of `encode_preprocessor_block_size`. -/
def preprocessorBlockSizeBits (size : U16) : U8 :=
  if size = 0 ∨ size = 8 then 0
  else if size = 16 then 0x40
  else if size = 32 ∨ size = 64 then 0x80
  else 0xc0

/-- The bits of `encode_preprocessor_data_sense`. -/
def dataSenseBits (dataSense : U8) : U8 := if dataSense = 1 then 0x20 else 0

/-- The bits of `encode_preprocessor_sample_resolution`. -/
def sampleResolutionBits (resolution : U8) : U8 :=
  if 1 ≤ resolution ∧ resolution ≤ 32 then resolution &&& 0x1f else 0

/-- The bits of `encode_entropy_coder_resolution_range`. -/
def resolutionRangeBits (resolution : U8) : U8 :=
  if resolution = 0 then 0
  else if resolution ≤ 8 then 0x10
  else if resolution ≤ 16 then 0x20
  else if resolution ≤ 32 then 0x30
  else 0

/-- The bits of `encode_extended_parameters_block_size`. -/
def extendedBlockSizeBits (size : U16) : U8 :=
  if size = 0 ∨ size = 8 then 0
  else if size = 16 then 0x1
  else if size = 32 then 0x2
  else if size = 64 then 0x3
  else 0xf

/-- The bits of `encode_extended_parameters_restricted_code_option`. -/
def restrictedCodeBits (option : U8) : U8 := if option = 1 then 0x40 else 0

section OrBits

variable (c : CompressionIdentificationPacket)

/-- No bits change nothing. -/
@[simp] theorem orPreprocessor_zero (i : Fin 2) : c.orPreprocessor i 0#8 = c := by
  simp [orPreprocessor]

/-- No bits change nothing. -/
@[simp] theorem orEntropyCoder_zero (i : Fin 2) : c.orEntropyCoder i 0#8 = c := by
  simp [orEntropyCoder]

/-- No bits change nothing. -/
@[simp] theorem orExtendedParameters_zero (i : Fin 2) :
    c.orExtendedParameters i 0#8 = c := by
  simp [orExtendedParameters]

/-- The encoder stores bits in byte 0 of the preprocessor field. -/
theorem encodePreprocessorStatus_eq (status : U8) :
    c.encodePreprocessorStatus status = c.orPreprocessor 0 (statusBits status) := by
  unfold encodePreprocessorStatus statusBits
  split_ifs with h0 h1 <;> simp_all [PreprocessorStatus.toU8]

/-- So does this one. -/
theorem encodePreprocessorPredictorType_eq (type : U8) :
    c.encodePreprocessorPredictorType type = c.orPreprocessor 0 (predictorTypeBits type) := by
  unfold encodePreprocessorPredictorType predictorTypeBits
  split_ifs <;> simp_all [PreprocessorPredictorType.toU8]

/-- So does this one. -/
theorem encodePreprocessorMapperType_eq (type : U8) :
    c.encodePreprocessorMapperType type = c.orPreprocessor 0 (mapperTypeBits type) := by
  unfold encodePreprocessorMapperType mapperTypeBits
  split_ifs <;> simp_all [PreprocessorMapperType.toU8, preprocessorMapperTypeMask]

/-- This one stores bits in byte 1. -/
theorem encodePreprocessorBlockSize_eq (size : U16) :
    c.encodePreprocessorBlockSize size = c.orPreprocessor 1 (preprocessorBlockSizeBits size) := by
  unfold encodePreprocessorBlockSize preprocessorBlockSizeBits
  split_ifs <;> simp_all [PreprocessorBlockSize.toU8]

/-- So does this one. -/
theorem encodePreprocessorDataSense_eq (dataSense : U8) :
    c.encodePreprocessorDataSense dataSense = c.orPreprocessor 1 (dataSenseBits dataSense) := by
  unfold encodePreprocessorDataSense dataSenseBits
  split_ifs <;> simp_all [PreprocessorDataSense.toU8]

/-- So does this one. -/
theorem encodePreprocessorSampleResolution_eq (resolution : U8) :
    c.encodePreprocessorSampleResolution resolution
      = c.orPreprocessor 1 (sampleResolutionBits resolution) := by
  unfold encodePreprocessorSampleResolution sampleResolutionBits
  split_ifs <;> simp_all

/-- This one stores bits in byte 0 of the entropy coder field. -/
theorem encodeEntropyCoderResolutionRange_eq (resolution : U8) :
    c.encodeEntropyCoderResolutionRange resolution
      = c.orEntropyCoder 0 (resolutionRangeBits resolution) := by
  unfold encodeEntropyCoderResolutionRange resolutionRangeBits
  split_ifs <;> simp_all [EntropyCoderResolutionRange.toU8]

/-- This one stores bits in byte 0 of the extended parameters. -/
theorem encodeExtendedParametersBlockSize_eq (size : U16) :
    c.encodeExtendedParametersBlockSize size
      = c.orExtendedParameters 0 (extendedBlockSizeBits size) := by
  unfold encodeExtendedParametersBlockSize extendedBlockSizeBits
  split_ifs <;> simp_all [ExtendedParametersBlockSize.toU8]

/-- This one stores bits in byte 1. -/
theorem encodeExtendedParametersRestrictedCodeOption_eq (option : U8) :
    c.encodeExtendedParametersRestrictedCodeOption option
      = c.orExtendedParameters 1 (restrictedCodeBits option) := by
  unfold encodeExtendedParametersRestrictedCodeOption restrictedCodeBits
  split_ifs <;> simp_all [ExtendedParametersRestrictedCodes.toU8]

/-- The setter of the CDS count, for a count it accepts. -/
theorem encodeEntropyCoderCdsNum_eq {num : U16} (h : 1 ≤ num ∧ num ≤ 4096) :
    c.encodeEntropyCoderCdsNum num
      = (c.orEntropyCoder 0
          ((num >>> 8 &&& entropyCoderCdsesNumMask >>> 8).setWidth 8)).setEntropyCoder 1
            (num.setWidth 8) := by
  rw [encodeEntropyCoderCdsNum, if_pos h]

/-- The setter of the CDS count writes the Entropy Coder subfield only, whatever the count. -/
theorem encodeEntropyCoderCdsNum_frame (num : U16) :
    ∃ e, c.encodeEntropyCoderCdsNum num
      = { c with dSourceDataVariable := { c.dSourceDataVariable with entropyCoder := e } } := by
  unfold encodeEntropyCoderCdsNum
  split_ifs <;> exact ⟨_, rfl⟩

/-- The number of coded data sets leaves the fixed part alone. -/
theorem encodeEntropyCoderCdsNum_fixed (num : U16) :
    (c.encodeEntropyCoderCdsNum num).dSourceDataFixed = c.dSourceDataFixed := by
  obtain ⟨e, he⟩ := c.encodeEntropyCoderCdsNum_frame num
  rw [he]

/-- It leaves the preprocessor field alone. -/
theorem encodeEntropyCoderCdsNum_preprocessor (num : U16) :
    (c.encodeEntropyCoderCdsNum num).dSourceDataVariable.preprocessor
      = c.dSourceDataVariable.preprocessor := by
  obtain ⟨e, he⟩ := c.encodeEntropyCoderCdsNum_frame num
  rw [he]

end OrBits

/-! ## The bytes after construction -/

section Construct

variable (fixed : SourceDataFixed) (storage : SourceDataVariable) (groupingDataLength : U16)
  (compressionTechId referenceSampleInterval preprocessorStatus predictorType mapperType : U8)
  (blockSize : U16) (dataSense sampleResolution : U8) (csdPerPacket : U16) (restrictedCodes : U8)

attribute [local simp] construct encode encodeGroupingDataLength encodeCompressionTechniqueId
  encodeReferenceSampleInterval encodePreprocessor encodeEntropyCoder
  encodeInstrumentConfiguration encodeExtendedParameters encodePreprocessorHeader
  encodePreprocessorStatus_eq encodePreprocessorPredictorType_eq encodePreprocessorMapperType_eq
  encodePreprocessorBlockSize_eq encodePreprocessorDataSense_eq
  encodePreprocessorSampleResolution_eq encodeEntropyCoderHeader
  encodeEntropyCoderResolutionRange_eq encodeInstrumentConfigurationHeader
  clearExtendedParameters encodeExtendedParametersHeader encodeExtendedParametersBlockSize_eq
  encodeExtendedParametersRestrictedCodeOption_eq encodeExtendedParametersReferenceSampleInterval
  orPreprocessor orEntropyCoder orExtendedParameters setEntropyCoder orFixed setFixed
  SourceConfigurationSubfieldHeader.toU8 extendedParametersReferenceSampleIntervalMask
  BitVec.or_assoc

/-- **The fixed part after construction.** Byte 0 keeps the bits of the storage. -/
theorem construct_fixed :
    (construct fixed storage groupingDataLength compressionTechId referenceSampleInterval
      preprocessorStatus predictorType mapperType blockSize dataSense sampleResolution csdPerPacket
      restrictedCodes).dSourceDataFixed
      = bytes4 (fixed.get 0 ||| ((groupingDataLength % 4096) >>> 8).setWidth 8)
          ((groupingDataLength % 4096).setWidth 8)
          compressionTechId
          (intervalByte referenceSampleInterval) := by
  refine eq_bytes4 ?_ ?_ ?_ ?_ <;> simp [encodeEntropyCoderCdsNum_fixed]

/-- **The Preprocessor subfield after construction.** Both bytes keep the bits of the storage. -/
theorem construct_preprocessor :
    (construct fixed storage groupingDataLength compressionTechId referenceSampleInterval
      preprocessorStatus predictorType mapperType blockSize dataSense sampleResolution csdPerPacket
      restrictedCodes).dSourceDataVariable.preprocessor
      = bytes2 (storage.preprocessor.get 0 ||| (statusBits preprocessorStatus
            ||| (predictorTypeBits predictorType ||| mapperTypeBits mapperType)))
          (storage.preprocessor.get 1 ||| (preprocessorBlockSizeBits blockSize
            ||| (dataSenseBits dataSense ||| sampleResolutionBits sampleResolution))) := by
  refine eq_bytes2 ?_ ?_ <;> simp [encodeEntropyCoderCdsNum_preprocessor]

/-- **The subfields after construction.** Both Preprocessor bytes and the first Entropy Coder byte
keep the bits of the storage; the Extended Parameters bytes do not. -/
theorem construct_variable (h : 1 ≤ csdPerPacket ∧ csdPerPacket ≤ 4096) :
    (construct fixed storage groupingDataLength compressionTechId referenceSampleInterval
      preprocessorStatus predictorType mapperType blockSize dataSense sampleResolution csdPerPacket
      restrictedCodes).dSourceDataVariable
      = { preprocessor :=
            bytes2 (storage.preprocessor.get 0 ||| (statusBits preprocessorStatus
                ||| (predictorTypeBits predictorType ||| mapperTypeBits mapperType)))
              (storage.preprocessor.get 1 ||| (preprocessorBlockSizeBits blockSize
                ||| (dataSenseBits dataSense ||| sampleResolutionBits sampleResolution)))
          entropyCoder :=
            bytes2 (storage.entropyCoder.get 0 ||| (0x40 ||| (resolutionRangeBits sampleResolution
                ||| (csdPerPacket >>> 8 &&& entropyCoderCdsesNumMask >>> 8).setWidth 8)))
              (csdPerPacket.setWidth 8)
          extendedParameters :=
            bytes2 (0xc0 ||| extendedBlockSizeBits blockSize)
              (restrictedCodeBits restrictedCodes
                ||| (intervalByte referenceSampleInterval &&& 0xf))
          instrumentConfigHeader := 2 } := by
  -- one goal for each byte, each a chain of ORs in the order of the setters
  rw [SourceDataVariable.mk.injEq]
  refine ⟨construct_preprocessor .., eq_bytes2 ?_ ?_, eq_bytes2 ?_ ?_, ?_⟩ <;>
    simp [encodeEntropyCoderCdsNum_eq _ h]

end Construct

end CompressionIdentificationPacket

end IQzip
