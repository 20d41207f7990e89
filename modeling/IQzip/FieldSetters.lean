import IQzip.FieldRoundTrip
import IQzip.Library.MaskedWrite

/-! # What a field setter does to the bytes

The calls of the setters of the two packed headers, each with an argument of the type of its
parameter. `PrimaryHeaderCall.get_run` and `PacketCall.byte_run` say all that a call does, as a
masked write to each byte; `decode_congr` says of each getter which bits it looks at. -/

namespace IQzip

open Library

/-- `a[i] = x` as an array write. -/
theorem get_assign_eq {n : Nat} (a : Vector U8 n) (i j : Fin n) (x : U8) :
    (a.assign i x).get j = (ArrayWrite.single i (.assign x) j).apply (a.get j) := by
  rw [Vector.get_assign, ArrayWrite.single]
  split_ifs
  · rw [MaskedWrite.apply_assign]
  · rw [MaskedWrite.apply_idle]

/-- `a[i] |= x` as an array write. -/
theorem get_assign_or {n : Nat} (a : Vector U8 n) (i j : Fin n) (x : U8) :
    (a.assign i (a.get i ||| x)).get j
      = (ArrayWrite.single i (.mark x) j).apply (a.get j) := by
  rw [Vector.get_assign, ArrayWrite.single]
  split_ifs with hi
  · rw [MaskedWrite.apply_mark, hi]
  · rw [MaskedWrite.apply_idle]

/-- `a[i] |= x; a[j] = y` as an array write. -/
theorem get_assign_or_assign {n : Nat} (a : Vector U8 n) (i j k : Fin n) (x y : U8) :
    ((a.assign i (a.get i ||| x)).assign j y).get k
      = (ArrayWrite.pair i (.mark x) j (.assign y) k).apply (a.get k) := by
  rw [get_assign_eq, get_assign_or, ArrayWrite.apply_pair_assign]

/-- A byte seen through all its bits is the byte. -/
theorem eq_of_and_allOnes {a b : U8} (h : a &&& 0xff = b &&& 0xff) : a = b := by
  rwa [show (0xff : U8) = BitVec.allOnes 8 from rfl, BitVec.and_allOnes, BitVec.and_allOnes] at h

/-- Bytes that agree on the bits of a mask agree on them when widened. -/
theorem setWidth_and_congr {a b m : U8} (h : a &&& m = b &&& m) :
    (a.setWidth 16 &&& m.setWidth 16 : U16) = b.setWidth 16 &&& m.setWidth 16 := by
  rw [← BitVec.setWidth_and, h, BitVec.setWidth_and]

/-! ## The primary header -/

/-- The fields of a primary header. Each has one setter and one getter. -/
inductive PrimaryHeaderField
  | version
  | type
  | secondaryHeaderFlag
  | applicationProcessIdentifier
  | sequenceFlags
  | packetSequenceCount
  | packetDataLength
  deriving DecidableEq

/-- A call of a setter of `ccsds_packet_primary_header`. -/
inductive PrimaryHeaderCall
  | version (version : U8)
  | type (type : U8)
  | secondaryHeaderFlag (flag : U8)
  | applicationProcessIdentifier (apid : U16)
  | sequenceFlags (sequenceFlags : U8)
  | packetSequenceCount (sequenceCount : U16)
  | packetDataLength (dataLength : U16)
  deriving DecidableEq

/-- The getter of a field; a `uint8_t` is widened. -/
def PrimaryHeaderField.decode (f : PrimaryHeaderField) (h : CcsdsPacketPrimaryHeader) : U16 :=
  match f with
  | .version => h.decodeVersion.setWidth 16
  | .type => h.decodeType.setWidth 16
  | .secondaryHeaderFlag => h.decodeSecondaryHeaderFlag.setWidth 16
  | .applicationProcessIdentifier => h.decodeApplicationProcessIdentifier
  | .sequenceFlags => h.decodeSequenceFlags.setWidth 16
  | .packetSequenceCount => h.decodePacketSequenceCount
  | .packetDataLength => h.decodePacketDataLength

/-- The bits the getter of a field looks at. -/
def PrimaryHeaderField.reads : PrimaryHeaderField → ArrayMask (Fin 6) 8
  | .version => .single 0 0xe0
  | .type => .single 0 0x10
  | .secondaryHeaderFlag => .single 0 0x8
  | .applicationProcessIdentifier => .pair 0 0x7 1 0xff
  | .sequenceFlags => .single 2 0xc0
  | .packetSequenceCount => .pair 2 0x3f 3 0xff
  | .packetDataLength => .pair 4 0xff 5 0xff

namespace PrimaryHeaderCall

/-- The field the call sets. -/
def field : PrimaryHeaderCall → PrimaryHeaderField
  | .version _ => .version
  | .type _ => .type
  | .secondaryHeaderFlag _ => .secondaryHeaderFlag
  | .applicationProcessIdentifier _ => .applicationProcessIdentifier
  | .sequenceFlags _ => .sequenceFlags
  | .packetSequenceCount _ => .packetSequenceCount
  | .packetDataLength _ => .packetDataLength

/-- The header after the call. -/
def run (f : PrimaryHeaderCall) (h : CcsdsPacketPrimaryHeader) : CcsdsPacketPrimaryHeader :=
  match f with
  | .version v => h.encodeVersion v
  | .type v => h.encodeType v
  | .secondaryHeaderFlag v => h.encodeSecondaryHeaderFlag v
  | .applicationProcessIdentifier v => h.encodeApplicationProcessIdentifier v
  | .sequenceFlags v => h.encodeSequenceFlags v
  | .packetSequenceCount v => h.encodePacketSequenceCount v
  | .packetDataLength v => h.encodePacketDataLength v

/-- The call as a write to the six bytes. -/
def write : PrimaryHeaderCall → ArrayWrite (Fin 6) 8
  | .version v => .single 0 (.mark ((v &&& 0x7) <<< 5))
  | .type v => .single 0 (.mark ((v &&& 0x1) <<< 4))
  | .secondaryHeaderFlag v => .single 0 (.mark (v <<< 3))
  | .applicationProcessIdentifier v =>
    .pair 0 (.mark ((v >>> 8 &&& applicationProcessIdMask >>> 8).setWidth 8))
      1 (.assign (v.setWidth 8))
  -- both bits are shifted out of the byte
  | .sequenceFlags _ => .single 2 (.mark 0)
  | .packetSequenceCount v =>
    .pair 2 (.mark (CcsdsPacketPrimaryHeader.thirdByteBits v))
      3 (.assign ((v % 16384).setWidth 8))
  | .packetDataLength v => .pair 4 (.mark ((v >>> 8).setWidth 8)) 5 (.assign (v.setWidth 8))

section Run

variable (h : CcsdsPacketPrimaryHeader)

/-- **What a call does to the bytes.** -/
theorem get_run (f : PrimaryHeaderCall) (i : Fin 6) :
    (f.run h).dPrimaryHeader.get i = (f.write i).apply (h.dPrimaryHeader.get i) := by
  cases f with
  | version v => exact get_assign_or ..
  | type v => exact get_assign_or ..
  | secondaryHeaderFlag v => exact get_assign_or ..
  | applicationProcessIdentifier v => exact get_assign_or_assign ..
  | sequenceFlags v =>
    simp only [run, CcsdsPacketPrimaryHeader.encodeSequenceFlags]
    -- what is ORed in is zero
    rw [get_assign_or, show (0xc0 : U8) = 192#8 from rfl,
      CcsdsPacketPrimaryHeader.sequenceFlags_shifted_out]
    rfl
  | packetSequenceCount v => exact get_assign_or_assign ..
  | packetDataLength v => exact get_assign_or_assign ..

end Run

open MaskedWrite ArrayWrite in
/-- Every call but that of the secondary header flag writes where the getter of its field reads. -/
theorem write_staysIn {f : PrimaryHeaderCall} (hflag : f.field ≠ .secondaryHeaderFlag)
    (i : Fin 6) : (f.write i).StaysIn (f.field.reads i) := by
  cases f with
  | version v =>
    have hv : Within ((v &&& 0x7) <<< 5) 0xe0 := by revert v; decide
    exact staysIn_single (staysIn_mark hv) i
  | type v =>
    have hv : Within ((v &&& 0x1) <<< 4) 0x10 := by revert v; decide
    exact staysIn_single (staysIn_mark hv) i
  | secondaryHeaderFlag v => exact absurd rfl hflag
  | applicationProcessIdentifier v =>
    refine staysIn_pair (staysIn_mark ?_) (staysIn_assign _) i
    rw [BitVec.setWidth_and]
    exact within_and _ _
  | sequenceFlags v => exact staysIn_single (staysIn_mark (within_zero _)) i
  | packetSequenceCount v =>
    refine staysIn_pair (staysIn_mark ?_) (staysIn_assign _) i
    rw [CcsdsPacketPrimaryHeader.thirdByteBits, BitVec.setWidth_and]
    exact within_and _ _
  | packetDataLength v =>
    exact staysIn_pair (staysIn_mark (within_allOnes _)) (staysIn_assign _) i

end PrimaryHeaderCall

namespace PrimaryHeaderField

/-- No bit is read by two getters. -/
theorem reads_disjoint {f g : PrimaryHeaderField} (hfg : f ≠ g) (i : Fin 6) :
    f.reads i &&& g.reads i = 0#8 := by
  revert i
  cases f <;> cases g <;> first | exact absurd rfl hfg | decide

/-- **A getter depends on the bits it looks at.** -/
theorem decode_congr (f : PrimaryHeaderField) {h h' : CcsdsPacketPrimaryHeader}
    (heq : ∀ i, h'.dPrimaryHeader.get i &&& f.reads i = h.dPrimaryHeader.get i &&& f.reads i) :
    f.decode h' = f.decode h := by
  cases f with
  | version => exact congrArg (fun b : U8 => (b >>> 5).setWidth 16) (heq 0)
  | type => exact congrArg (fun b : U8 => (b >>> 4).setWidth 16) (heq 0)
  | secondaryHeaderFlag => exact congrArg (fun b : U8 => (b >>> 3).setWidth 16) (heq 0)
  | applicationProcessIdentifier =>
    have hlow := eq_of_and_allOnes (heq 1)
    have hhigh := setWidth_and_congr (m := 0x7) (heq 0)
    simp only [decode, CcsdsPacketPrimaryHeader.decodeApplicationProcessIdentifier, hlow]
    exact congrArg (fun b : U16 => _ ||| b <<< 8) hhigh
  | sequenceFlags => exact congrArg (fun b : U8 => (b >>> 6).setWidth 16) (heq 2)
  | packetSequenceCount =>
    have hlow := eq_of_and_allOnes (heq 3)
    have hhigh := setWidth_and_congr (m := 0x3f) (heq 2)
    simp only [decode, CcsdsPacketPrimaryHeader.decodePacketSequenceCount, hlow]
    exact congrArg (fun b : U16 => _ ||| b <<< 8) hhigh
  | packetDataLength =>
    have hlow := eq_of_and_allOnes (heq 5)
    have hhigh := eq_of_and_allOnes (heq 4)
    simp only [decode, CcsdsPacketPrimaryHeader.decodePacketDataLength, hlow, hhigh]

end PrimaryHeaderField

/-! ## The identification packet -/

/-- The bytes of the two packed fields of a packet; the two bits of the Instrument Configuration
header count as a byte. -/
inductive PacketByte
  | fixed (i : Fin 4)
  | preprocessor (i : Fin 2)
  | entropyCoder (i : Fin 2)
  | extendedParameters (i : Fin 2)
  | instrumentConfigHeader
  deriving DecidableEq

/-- The byte at a place of the packet. -/
def CompressionIdentificationPacket.byte (c : CompressionIdentificationPacket) : PacketByte → U8
  | .fixed i => c.dSourceDataFixed.get i
  | .preprocessor i => c.dSourceDataVariable.preprocessor.get i
  | .entropyCoder i => c.dSourceDataVariable.entropyCoder.get i
  | .extendedParameters i => c.dSourceDataVariable.extendedParameters.get i
  | .instrumentConfigHeader => c.dSourceDataVariable.instrumentConfigHeader.setWidth 8

/-- The fields of a packet that have a getter. -/
inductive PacketField
  | groupingDataLength
  | compressionTechniqueId
  | referenceSampleInterval
  | preprocessorStatus
  | preprocessorPredictorType
  | preprocessorMapperType
  | preprocessorBlockSize
  | preprocessorDataSense
  | preprocessorSampleResolution
  | extendedParametersBlockSize
  | extendedParametersRestrictedCodeOption
  | extendedParametersReferenceSampleInterval
  deriving DecidableEq

/-- A call of a setter of `compression_identification_packet`; the tags of the subfields have
setters without an argument. -/
inductive PacketCall
  | groupingDataLength (length : U16)
  | compressionTechniqueId (id : U8)
  | referenceSampleInterval (interval : U8)
  | preprocessorHeader
  | preprocessorStatus (status : U8)
  | preprocessorPredictorType (type : U8)
  | preprocessorMapperType (type : U8)
  | preprocessorBlockSize (size : U16)
  | preprocessorDataSense (dataSense : U8)
  | preprocessorSampleResolution (resolution : U8)
  | entropyCoderHeader
  | entropyCoderResolutionRange (resolution : U8)
  | entropyCoderCdsNum (num : U16)
  | instrumentConfigurationHeader
  | extendedParametersHeader
  | extendedParametersBlockSize (size : U16)
  | extendedParametersRestrictedCodeOption (option : U8)
  | extendedParametersReferenceSampleInterval (interval : U8)
  deriving DecidableEq

/-- The getter of a field; a `uint8_t` is widened. -/
def PacketField.decode (f : PacketField) (c : CompressionIdentificationPacket) : U16 :=
  match f with
  | .groupingDataLength => c.decodeGroupingDataLength
  | .compressionTechniqueId => c.decodeCompressionTechniqueId.setWidth 16
  | .referenceSampleInterval => c.decodeReferenceSampleInterval.setWidth 16
  | .preprocessorStatus => c.decodePreprocessorStatus.setWidth 16
  | .preprocessorPredictorType => c.decodePreprocessorPredictorType.setWidth 16
  | .preprocessorMapperType => c.decodePreprocessorMapperType.setWidth 16
  | .preprocessorBlockSize => c.decodePreprocessorBlockSize
  | .preprocessorDataSense => c.decodePreprocessorDataSense.setWidth 16
  | .preprocessorSampleResolution => c.decodePreprocessorSampleResolution.setWidth 16
  | .extendedParametersBlockSize => c.decodeExtendedParametersBlockSize
  | .extendedParametersRestrictedCodeOption =>
    c.decodeExtendedParametersRestrictedCodeOption.setWidth 16
  | .extendedParametersReferenceSampleInterval =>
    c.decodeExtendedParametersReferenceSampleInterval.setWidth 16

/-- The bits the getter of a field looks at. -/
def PacketField.reads : PacketField → ArrayMask PacketByte 8
  | .groupingDataLength => .pair (.fixed 0) 0xff (.fixed 1) 0xff
  | .compressionTechniqueId => .single (.fixed 2) 0xff
  | .referenceSampleInterval => .single (.fixed 3) 0xff
  | .preprocessorStatus => .single (.preprocessor 0) 0x20
  | .preprocessorPredictorType => .single (.preprocessor 0) 0x1c
  | .preprocessorMapperType => .single (.preprocessor 0) 0x3
  | .preprocessorBlockSize => .single (.preprocessor 1) 0xc0
  | .preprocessorDataSense => .single (.preprocessor 1) 0x20
  | .preprocessorSampleResolution => .single (.preprocessor 1) 0x1f
  | .extendedParametersBlockSize => .single (.extendedParameters 0) 0xf
  | .extendedParametersRestrictedCodeOption => .single (.extendedParameters 1) 0x40
  | .extendedParametersReferenceSampleInterval => .single (.extendedParameters 1) 0xf

namespace PacketCall

/-- The field the call sets, when it has a getter. -/
def field : PacketCall → Option PacketField
  | .groupingDataLength _ => some .groupingDataLength
  | .compressionTechniqueId _ => some .compressionTechniqueId
  | .referenceSampleInterval _ => some .referenceSampleInterval
  | .preprocessorHeader => none
  | .preprocessorStatus _ => some .preprocessorStatus
  | .preprocessorPredictorType _ => some .preprocessorPredictorType
  | .preprocessorMapperType _ => some .preprocessorMapperType
  | .preprocessorBlockSize _ => some .preprocessorBlockSize
  | .preprocessorDataSense _ => some .preprocessorDataSense
  | .preprocessorSampleResolution _ => some .preprocessorSampleResolution
  | .entropyCoderHeader => none
  | .entropyCoderResolutionRange _ => none
  | .entropyCoderCdsNum _ => none
  | .instrumentConfigurationHeader => none
  | .extendedParametersHeader => none
  | .extendedParametersBlockSize _ => some .extendedParametersBlockSize
  | .extendedParametersRestrictedCodeOption _ => some .extendedParametersRestrictedCodeOption
  | .extendedParametersReferenceSampleInterval _ => some .extendedParametersReferenceSampleInterval

/-- The packet after the call. -/
def run (s : PacketCall) (c : CompressionIdentificationPacket) : CompressionIdentificationPacket :=
  match s with
  | .groupingDataLength v => c.encodeGroupingDataLength v
  | .compressionTechniqueId v => c.encodeCompressionTechniqueId v
  | .referenceSampleInterval v => c.encodeReferenceSampleInterval v
  | .preprocessorHeader => c.encodePreprocessorHeader
  | .preprocessorStatus v => c.encodePreprocessorStatus v
  | .preprocessorPredictorType v => c.encodePreprocessorPredictorType v
  | .preprocessorMapperType v => c.encodePreprocessorMapperType v
  | .preprocessorBlockSize v => c.encodePreprocessorBlockSize v
  | .preprocessorDataSense v => c.encodePreprocessorDataSense v
  | .preprocessorSampleResolution v => c.encodePreprocessorSampleResolution v
  | .entropyCoderHeader => c.encodeEntropyCoderHeader
  | .entropyCoderResolutionRange v => c.encodeEntropyCoderResolutionRange v
  | .entropyCoderCdsNum v => c.encodeEntropyCoderCdsNum v
  | .instrumentConfigurationHeader => c.encodeInstrumentConfigurationHeader
  | .extendedParametersHeader => c.encodeExtendedParametersHeader
  | .extendedParametersBlockSize v => c.encodeExtendedParametersBlockSize v
  | .extendedParametersRestrictedCodeOption v => c.encodeExtendedParametersRestrictedCodeOption v
  | .extendedParametersReferenceSampleInterval v =>
    c.encodeExtendedParametersReferenceSampleInterval v

/-- The arguments that the setter does not call invalid. -/
def Accepted : PacketCall → Prop
  | .preprocessorStatus v => v = 0 ∨ v = 1
  | .preprocessorPredictorType v => v = 0 ∨ v = 1 ∨ v = 7
  | .preprocessorMapperType v => v = 0 ∨ v = 3
  | .preprocessorBlockSize v => v ≠ 0
  | .preprocessorDataSense v => v = 0 ∨ v = 1
  | .preprocessorSampleResolution v => 1 ≤ v ∧ v ≤ 32
  | .entropyCoderResolutionRange v => v ≠ 0
  | .entropyCoderCdsNum v => 1 ≤ v ∧ v ≤ 4096
  | .extendedParametersBlockSize v => v ≠ 0
  | .extendedParametersRestrictedCodeOption v => v = 0 ∨ v = 1
  | _ => True

/-- The bits of the subfields that only the setters without a getter write. -/
def tagBits : PacketCall → ArrayMask PacketByte 8
  | .entropyCoderHeader => .single (.entropyCoder 0) 0xc0
  | .entropyCoderResolutionRange _ => .single (.entropyCoder 0) 0x30
  | .entropyCoderCdsNum _ => .pair (.entropyCoder 0) 0xf (.entropyCoder 1) 0xff
  | .instrumentConfigurationHeader => .single .instrumentConfigHeader 0xff
  | .extendedParametersHeader => .single (.extendedParameters 0) 0xc0
  -- the tag of the Preprocessor subfield is zero
  | _ => .single (.preprocessor 0) 0

/-- The bits the setter may change. -/
def touches (s : PacketCall) : ArrayMask PacketByte 8 :=
  match s.field with
  | some f => f.reads
  | none => s.tagBits

open CompressionIdentificationPacket

/-- The call as a write to the bytes. -/
def write : PacketCall → ArrayWrite PacketByte 8
  | .groupingDataLength v =>
    .pair (.fixed 0) (.mark (((v % 4096) >>> 8).setWidth 8))
      (.fixed 1) (.assign ((v % 4096).setWidth 8))
  | .compressionTechniqueId v => .single (.fixed 2) (.assign v)
  | .referenceSampleInterval v => .single (.fixed 3) (.assign (intervalByte v))
  | .preprocessorHeader => .single (.preprocessor 0) (.mark 0)
  | .preprocessorStatus v => .single (.preprocessor 0) (.mark (statusBits v))
  | .preprocessorPredictorType v => .single (.preprocessor 0) (.mark (predictorTypeBits v))
  | .preprocessorMapperType v => .single (.preprocessor 0) (.mark (mapperTypeBits v))
  | .preprocessorBlockSize v => .single (.preprocessor 1) (.mark (preprocessorBlockSizeBits v))
  | .preprocessorDataSense v => .single (.preprocessor 1) (.mark (dataSenseBits v))
  | .preprocessorSampleResolution v => .single (.preprocessor 1) (.mark (sampleResolutionBits v))
  | .entropyCoderHeader => .single (.entropyCoder 0) (.mark 0x40)
  | .entropyCoderResolutionRange v => .single (.entropyCoder 0) (.mark (resolutionRangeBits v))
  | .entropyCoderCdsNum v =>
    if 1 ≤ v ∧ v ≤ 4096 then
      .pair (.entropyCoder 0) (.mark ((v >>> 8 &&& entropyCoderCdsesNumMask >>> 8).setWidth 8))
        (.entropyCoder 1) (.assign (v.setWidth 8))
    else fun _ => .idle
  | .instrumentConfigurationHeader => .single .instrumentConfigHeader (.assign 2)
  | .extendedParametersHeader => .single (.extendedParameters 0) (.mark 0xc0)
  | .extendedParametersBlockSize v =>
    .single (.extendedParameters 0) (.mark (extendedBlockSizeBits v))
  | .extendedParametersRestrictedCodeOption v =>
    .single (.extendedParameters 1) (.mark (restrictedCodeBits v))
  | .extendedParametersReferenceSampleInterval v =>
    .single (.extendedParameters 1)
      (.mark (intervalByte v &&& extendedParametersReferenceSampleIntervalMask))

section Run

variable (c : CompressionIdentificationPacket)

/-- `|=` on a byte of the fixed part. -/
theorem byte_orFixed (i : Fin 4) (bits : U8) (j : PacketByte) :
    (c.orFixed i bits).byte j
      = (ArrayWrite.single (.fixed i) (.mark bits) j).apply (c.byte j) := by
  cases j with
  | fixed k =>
    simp only [byte, orFixed, get_assign_or, ArrayWrite.single, PacketByte.fixed.injEq]
  | _ => simp [byte, orFixed, ArrayWrite.single]

/-- `=` on a byte of the fixed part. -/
theorem byte_setFixed (i : Fin 4) (value : U8) (j : PacketByte) :
    (c.setFixed i value).byte j
      = (ArrayWrite.single (.fixed i) (.assign value) j).apply (c.byte j) := by
  cases j with
  | fixed k =>
    simp only [byte, setFixed, get_assign_eq, ArrayWrite.single, PacketByte.fixed.injEq]
  | _ => simp [byte, setFixed, ArrayWrite.single]

/-- `|=` on a byte of the Preprocessor subfield. -/
theorem byte_orPreprocessor (i : Fin 2) (bits : U8) (j : PacketByte) :
    (c.orPreprocessor i bits).byte j
      = (ArrayWrite.single (.preprocessor i) (.mark bits) j).apply (c.byte j) := by
  cases j with
  | preprocessor k =>
    simp only [byte, orPreprocessor, get_assign_or, ArrayWrite.single,
      PacketByte.preprocessor.injEq]
  | _ => simp [byte, orPreprocessor, ArrayWrite.single]

/-- `|=` on a byte of the Entropy Coder subfield. -/
theorem byte_orEntropyCoder (i : Fin 2) (bits : U8) (j : PacketByte) :
    (c.orEntropyCoder i bits).byte j
      = (ArrayWrite.single (.entropyCoder i) (.mark bits) j).apply (c.byte j) := by
  cases j with
  | entropyCoder k =>
    simp only [byte, orEntropyCoder, get_assign_or, ArrayWrite.single,
      PacketByte.entropyCoder.injEq]
  | _ => simp [byte, orEntropyCoder, ArrayWrite.single]

/-- `=` on a byte of the Entropy Coder subfield. -/
theorem byte_setEntropyCoder (i : Fin 2) (value : U8) (j : PacketByte) :
    (c.setEntropyCoder i value).byte j
      = (ArrayWrite.single (.entropyCoder i) (.assign value) j).apply (c.byte j) := by
  cases j with
  | entropyCoder k =>
    simp only [byte, setEntropyCoder, get_assign_eq, ArrayWrite.single,
      PacketByte.entropyCoder.injEq]
  | _ => simp [byte, setEntropyCoder, ArrayWrite.single]

/-- `|=` on a byte of the Extended Parameters subfield. -/
theorem byte_orExtendedParameters (i : Fin 2) (bits : U8) (j : PacketByte) :
    (c.orExtendedParameters i bits).byte j
      = (ArrayWrite.single (.extendedParameters i) (.mark bits) j).apply (c.byte j) := by
  cases j with
  | extendedParameters k =>
    simp only [byte, orExtendedParameters, get_assign_or, ArrayWrite.single,
      PacketByte.extendedParameters.injEq]
  | _ => simp [byte, orExtendedParameters, ArrayWrite.single]

/-- **What a call does to the bytes.** -/
theorem byte_run (s : PacketCall) (j : PacketByte) :
    (s.run c).byte j = (s.write j).apply (c.byte j) := by
  cases s with
  | groupingDataLength v =>
    rw [run, encodeGroupingDataLength, byte_setFixed, byte_orFixed, write,
      ArrayWrite.apply_pair_assign]
  | compressionTechniqueId v => exact byte_setFixed ..
  | referenceSampleInterval v => exact byte_setFixed ..
  | preprocessorHeader => exact byte_orPreprocessor ..
  | preprocessorStatus v =>
    rw [run, encodePreprocessorStatus_eq]
    exact byte_orPreprocessor ..
  | preprocessorPredictorType v =>
    rw [run, encodePreprocessorPredictorType_eq]
    exact byte_orPreprocessor ..
  | preprocessorMapperType v =>
    rw [run, encodePreprocessorMapperType_eq]
    exact byte_orPreprocessor ..
  | preprocessorBlockSize v =>
    rw [run, encodePreprocessorBlockSize_eq]
    exact byte_orPreprocessor ..
  | preprocessorDataSense v =>
    rw [run, encodePreprocessorDataSense_eq]
    exact byte_orPreprocessor ..
  | preprocessorSampleResolution v =>
    rw [run, encodePreprocessorSampleResolution_eq]
    exact byte_orPreprocessor ..
  | entropyCoderHeader => exact byte_orEntropyCoder ..
  | entropyCoderResolutionRange v =>
    rw [run, encodeEntropyCoderResolutionRange_eq]
    exact byte_orEntropyCoder ..
  | entropyCoderCdsNum v =>
    rw [run, encodeEntropyCoderCdsNum, write]
    split_ifs
    · rw [byte_setEntropyCoder, byte_orEntropyCoder, ArrayWrite.apply_pair_assign]
    · rw [unthrown_eq, MaskedWrite.apply_idle]
  | instrumentConfigurationHeader =>
    rw [run, encodeInstrumentConfigurationHeader, write, ArrayWrite.single]
    cases j with
    | instrumentConfigHeader =>
      rw [if_pos rfl, MaskedWrite.apply_assign]
      rfl
    | _ => exact (MaskedWrite.apply_idle _).symm
  | extendedParametersHeader => exact byte_orExtendedParameters ..
  | extendedParametersBlockSize v =>
    rw [run, encodeExtendedParametersBlockSize_eq]
    exact byte_orExtendedParameters ..
  | extendedParametersRestrictedCodeOption v =>
    rw [run, encodeExtendedParametersRestrictedCodeOption_eq]
    exact byte_orExtendedParameters ..
  | extendedParametersReferenceSampleInterval v => exact byte_orExtendedParameters ..

end Run

open MaskedWrite ArrayWrite in
/-- Every call writes inside its own bits, whatever its argument. -/
theorem write_staysIn (s : PacketCall) (j : PacketByte) : (s.write j).StaysIn (s.touches j) := by
  cases s with
  | groupingDataLength v =>
    exact staysIn_pair (staysIn_mark (within_allOnes _)) (staysIn_assign _) j
  | compressionTechniqueId v => exact staysIn_single (staysIn_assign _) j
  | referenceSampleInterval v => exact staysIn_single (staysIn_assign _) j
  | preprocessorHeader => exact staysIn_single (staysIn_mark (within_zero _)) j
  | preprocessorStatus v =>
    refine staysIn_single (staysIn_mark ?_) j
    unfold statusBits
    split_ifs <;> decide
  | preprocessorPredictorType v =>
    refine staysIn_single (staysIn_mark ?_) j
    unfold predictorTypeBits
    split_ifs <;> decide
  | preprocessorMapperType v =>
    refine staysIn_single (staysIn_mark ?_) j
    unfold mapperTypeBits
    split_ifs <;> decide
  | preprocessorBlockSize v =>
    refine staysIn_single (staysIn_mark ?_) j
    unfold preprocessorBlockSizeBits
    split_ifs <;> decide
  | preprocessorDataSense v =>
    refine staysIn_single (staysIn_mark ?_) j
    unfold dataSenseBits
    split_ifs <;> decide
  | preprocessorSampleResolution v =>
    refine staysIn_single (staysIn_mark ?_) j
    unfold sampleResolutionBits
    split_ifs
    · exact within_and _ _
    · exact within_zero _
  | entropyCoderHeader => exact staysIn_single (staysIn_mark (by decide)) j
  | entropyCoderResolutionRange v =>
    refine staysIn_single (staysIn_mark ?_) j
    unfold resolutionRangeBits
    split_ifs <;> decide
  | entropyCoderCdsNum v =>
    rw [write]
    split_ifs
    · refine staysIn_pair (staysIn_mark ?_) (staysIn_assign _) j
      rw [BitVec.setWidth_and]
      exact within_and _ _
    · exact staysIn_idle _
  | instrumentConfigurationHeader => exact staysIn_single (staysIn_assign _) j
  | extendedParametersHeader => exact staysIn_single (staysIn_mark (by decide)) j
  | extendedParametersBlockSize v =>
    refine staysIn_single (staysIn_mark ?_) j
    unfold extendedBlockSizeBits
    split_ifs <;> decide
  | extendedParametersRestrictedCodeOption v =>
    refine staysIn_single (staysIn_mark ?_) j
    unfold restrictedCodeBits
    split_ifs <;> decide
  | extendedParametersReferenceSampleInterval v =>
    exact staysIn_single (staysIn_mark (within_and _ _)) j

end PacketCall

namespace PacketField

/-- No bit is read by two getters. -/
theorem reads_disjoint {f g : PacketField} (hfg : f ≠ g) (j : PacketByte) :
    f.reads j &&& g.reads j = 0#8 := by
  rcases j with i | i | i | i | _ <;> cases f <;> cases g <;>
    first
    | rfl
    | exact absurd rfl hfg
    | (revert i; decide)

/-- The tags lie outside the bits of every getter. -/
theorem tagBits_disjoint (s : PacketCall) (g : PacketField) (j : PacketByte) :
    s.tagBits j &&& g.reads j = 0#8 := by
  -- no getter looks at the Entropy Coder or the Instrument Configuration
  have hunread : ∀ i, g.reads (.entropyCoder i) = 0#8 ∧ g.reads .instrumentConfigHeader = 0#8 := by
    intro i
    cases g <;> exact ⟨rfl, rfl⟩
  -- and the block size is read below the tag of its byte
  have htag : ∀ i, ArrayMask.single (PacketByte.extendedParameters 0) 0xc0 (.extendedParameters i)
      &&& g.reads (.extendedParameters i) = 0#8 := by
    intro i
    cases g <;> first | exact BitVec.and_zero | (revert i; decide)
  rcases j with i | i | i | i | _
  · cases s <;> exact BitVec.zero_and
  · have hzero : s.tagBits (.preprocessor i) = 0#8 := by
      cases s <;> first | rfl | exact ite_self _
    rw [hzero, BitVec.zero_and]
  · rw [(hunread i).1, BitVec.and_zero]
  · cases s <;> first | exact BitVec.zero_and | exact htag i
  · rw [(hunread 0).2, BitVec.and_zero]

/-- No setter changes the bits that the getter of another field looks at. -/
theorem touches_disjoint {s : PacketCall} {g : PacketField} (hg : s.field ≠ some g)
    (j : PacketByte) : s.touches j &&& g.reads j = 0#8 := by
  rw [PacketCall.touches]
  cases hf : s.field with
  | none => exact tagBits_disjoint s g j
  | some f =>
    refine reads_disjoint ?_ j
    rintro rfl
    exact hg hf

/-- **A getter depends on the bits it looks at.** -/
theorem decode_congr (f : PacketField) {c c' : CompressionIdentificationPacket}
    (heq : ∀ j, c'.byte j &&& f.reads j = c.byte j &&& f.reads j) : f.decode c' = f.decode c := by
  cases f with
  | groupingDataLength =>
    have hlow := eq_of_and_allOnes (heq (.fixed 1))
    have hhigh := eq_of_and_allOnes (heq (.fixed 0))
    simp only [CompressionIdentificationPacket.byte] at hlow hhigh
    simp only [decode, CompressionIdentificationPacket.decodeGroupingDataLength, hlow, hhigh]
  | compressionTechniqueId =>
    exact congrArg (fun b : U8 => b.setWidth 16) (eq_of_and_allOnes (heq (.fixed 2)))
  | referenceSampleInterval =>
    exact congrArg (fun b : U8 => (b + 1).setWidth 16) (eq_of_and_allOnes (heq (.fixed 3)))
  | preprocessorStatus =>
    exact congrArg (fun b : U8 => (b >>> 5).setWidth 16) (heq (.preprocessor 0))
  | preprocessorPredictorType =>
    exact congrArg (fun b : U8 => (b >>> 2).setWidth 16) (heq (.preprocessor 0))
  | preprocessorMapperType =>
    exact congrArg (fun b : U8 => b.setWidth 16) (heq (.preprocessor 0))
  | preprocessorBlockSize =>
    have hcode : c'.dSourceDataVariable.preprocessor.get 1 &&& preprocessorBlockSizeMask
        = c.dSourceDataVariable.preprocessor.get 1 &&& preprocessorBlockSizeMask :=
      heq (.preprocessor 1)
    rw [decode, decode, CompressionIdentificationPacket.decodePreprocessorBlockSize,
      CompressionIdentificationPacket.decodePreprocessorBlockSize, hcode]
  | preprocessorDataSense =>
    exact congrArg (fun b : U8 => (b >>> 5).setWidth 16) (heq (.preprocessor 1))
  | preprocessorSampleResolution =>
    exact congrArg (fun b : U8 => b.setWidth 16) (heq (.preprocessor 1))
  | extendedParametersBlockSize =>
    have hcode : c'.dSourceDataVariable.extendedParameters.get 0
          &&& extendedParametersBlockSizeMask
        = c.dSourceDataVariable.extendedParameters.get 0 &&& extendedParametersBlockSizeMask :=
      heq (.extendedParameters 0)
    rw [decode, decode, CompressionIdentificationPacket.decodeExtendedParametersBlockSize,
      CompressionIdentificationPacket.decodeExtendedParametersBlockSize, hcode]
  | extendedParametersRestrictedCodeOption =>
    exact congrArg (fun b : U8 => b.setWidth 16) (heq (.extendedParameters 1))
  | extendedParametersReferenceSampleInterval =>
    exact congrArg (fun b : U8 => b.setWidth 16) (heq (.extendedParameters 1))

end PacketField

end IQzip
