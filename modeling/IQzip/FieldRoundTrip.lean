import IQzip.HeaderShape

/-! # Packed fields: what comes back from a constructed header

The primary header packs seven values in six bytes, the fixed part and the Preprocessor subfield of
the identification packet eight values in six. Every byte that several values share is a union of
bit fields, so a getter that masks one of them sees its own value and no other.

* `primaryHeader_roundTrip_iff`: the seven values of a primary header.
* `mandatoryFields_roundTrip_iff`: the eight values of an identification packet. -/

namespace IQzip

/-! ## The primary header -/

/-- The values of the seven fields of a primary header. -/
structure PrimaryHeaderFields where
  version : U8
  type : U8
  secHdrFlag : U8
  apid : U16
  sequenceFlags : U8
  packetSequenceCount : U16
  packetDataLength : U16
  deriving DecidableEq

/-- The values are no wider than the fields of the layout; the data length has all 16 bits. -/
structure PrimaryHeaderFields.Fits (f : PrimaryHeaderFields) : Prop where
  version : f.version < 8
  type : f.type < 2
  secHdrFlag : f.secHdrFlag < 2
  apid : f.apid < 2048
  sequenceFlags : f.sequenceFlags < 4
  packetSequenceCount : f.packetSequenceCount < 16384

instance (f : PrimaryHeaderFields) : Decidable f.Fits :=
  decidable_of_iff
    (f.version < 8 ∧ f.type < 2 ∧ f.secHdrFlag < 2 ∧ f.apid < 2048 ∧ f.sequenceFlags < 4
      ∧ f.packetSequenceCount < 16384)
    ⟨fun ⟨h1, h2, h3, h4, h5, h6⟩ => ⟨h1, h2, h3, h4, h5, h6⟩,
      fun ⟨h1, h2, h3, h4, h5, h6⟩ => ⟨h1, h2, h3, h4, h5, h6⟩⟩

/-- The primary header built from the seven values. -/
def PrimaryHeaderFields.header (f : PrimaryHeaderFields) (storage : PacketPrimaryHeader) :
    CcsdsPacketPrimaryHeader :=
  CcsdsPacketPrimaryHeader.construct storage f.version f.type f.secHdrFlag f.apid f.sequenceFlags
    f.packetSequenceCount f.packetDataLength

namespace CcsdsPacketPrimaryHeader

/-- The seven getters. -/
def fields (h : CcsdsPacketPrimaryHeader) : PrimaryHeaderFields :=
  { version := h.decodeVersion
    type := h.decodeType
    secHdrFlag := h.decodeSecondaryHeaderFlag
    apid := h.decodeApplicationProcessIdentifier
    sequenceFlags := h.decodeSequenceFlags
    packetSequenceCount := h.decodePacketSequenceCount
    packetDataLength := h.decodePacketDataLength }

/-- The version, in byte 0. -/
def versionField : BitField 8 := ⟨5, 3, by decide⟩

/-- The type, in byte 0. -/
def typeField : BitField 8 := ⟨4, 1, by decide⟩

/-- The secondary header flag, in byte 0. -/
def secHdrFlagField : BitField 8 := ⟨3, 1, by decide⟩

/-- The top three bits of the application process identifier, in byte 0. -/
def apidHighField : BitField 8 := ⟨0, 3, by decide⟩

/-- The sequence flags, in byte 2. -/
def sequenceFlagsField : BitField 8 := ⟨6, 2, Nat.le_refl 8⟩

/-- The top six bits of the packet sequence count, in byte 2. -/
def sequenceCountHighField : BitField 8 := ⟨0, 6, by decide⟩

/-- Byte 0 is a union of four fields. The setter of the flag does not mask, so a flag above 1 would
reach the type and the version. -/
theorem firstByteBits_eq_place {version type secHdrFlag : U8} {apid : U16}
    (hflag : secHdrFlag < 2) :
    firstByteBits version type secHdrFlag apid
      = typeField.place type ||| (versionField.place version
        ||| (secHdrFlagField.place secHdrFlag
          ||| apidHighField.place ((apid >>> 8).setWidth 8))) := by
  have hfits : secHdrFlag.toNat < 2 ^ secHdrFlagField.width := hflag
  rw [secHdrFlagField.place_of_lt hfits, typeField.place_eq_shiftLeft,
    versionField.place_eq_shiftLeft, apidHighField.place_eq_shiftLeft]
  simp [firstByteBits, applicationProcessIdMask, typeField, versionField, secHdrFlagField,
    apidHighField]

/-- Of byte 2 only the top of the sequence count is written. -/
theorem thirdByteBits_eq_place (packetSequenceCount : U16) :
    thirdByteBits packetSequenceCount
      = sequenceCountHighField.place (((packetSequenceCount % 16384) >>> 8).setWidth 8) := by
  rw [sequenceCountHighField.place_eq_shiftLeft]
  simp [thirdByteBits, sequenceCountHighField]

/-- The bytes of a header built on zeroed storage. -/
theorem header_bytes (f : PrimaryHeaderFields) :
    (f.header HeaderStorage.zero.primaryHeader).dPrimaryHeader
      = bytes6 (firstByteBits f.version f.type f.secHdrFlag f.apid) (f.apid.setWidth 8)
          (thirdByteBits f.packetSequenceCount) ((f.packetSequenceCount % 16384).setWidth 8)
          ((f.packetDataLength >>> 8).setWidth 8) (f.packetDataLength.setWidth 8) := by
  have hzero : ∀ i, HeaderStorage.zero.primaryHeader.get i = 0#8 := by decide
  simp only [PrimaryHeaderFields.header, construct_bytes, hzero, BitVec.zero_or]

/-- A 16-bit value whose high byte is cut to a field at the bottom of a byte. -/
theorem low_or_high {b : U8} {x : U16} {high : BitField 8} (hshift : high.shift = 0)
    (hb : high.get b = (x >>> 8).setWidth 8) :
    (x.setWidth 8 : U8).setWidth 16 ||| ((b.setWidth 16 &&& high.mask.setWidth 16) <<< 8) = x := by
  have hget : (b.setWidth 16 &&& high.mask.setWidth 16 : U16) = (high.get b).setWidth 16 := by
    rw [← BitVec.setWidth_and, BitField.get, hshift]
    rfl
  rw [hget, hb]
  exact BitVec.or_parts x (by decide)

section Decode

variable {f : PrimaryHeaderFields} (fits : f.Fits)

include fits

/-- The four fields of byte 0 are read back. -/
theorem firstByte_get :
    versionField.get (firstByteBits f.version f.type f.secHdrFlag f.apid) = f.version
      ∧ typeField.get (firstByteBits f.version f.type f.secHdrFlag f.apid) = f.type
      ∧ secHdrFlagField.get (firstByteBits f.version f.type f.secHdrFlag f.apid) = f.secHdrFlag
      ∧ apidHighField.get (firstByteBits f.version f.type f.secHdrFlag f.apid)
        = (f.apid >>> 8).setWidth 8 := by
  have hversion : f.version.toNat < 2 ^ versionField.width := fits.version
  have htype : f.type.toNat < 2 ^ typeField.width := fits.type
  have hflag : f.secHdrFlag.toNat < 2 ^ secHdrFlagField.width := fits.secHdrFlag
  have hapid : ((f.apid >>> 8).setWidth 8 : U8).toNat < 2 ^ apidHighField.width := by
    have := fits.apid
    change _ < 2 ^ 3
    bv_omega
  rw [firstByteBits_eq_place fits.secHdrFlag]
  -- each read keeps the place of its own field and loses the three others
  simp (disch := decide) only [BitField.get_or, BitField.get_place_of_disjoint]
  rw [BitField.get_place _ hversion, BitField.get_place _ htype, BitField.get_place _ hflag,
    BitField.get_place _ hapid]
  simp

/-- Byte 2 holds the top of the sequence count and no sequence flags. -/
theorem thirdByte_get :
    sequenceCountHighField.get (thirdByteBits f.packetSequenceCount)
        = (f.packetSequenceCount >>> 8).setWidth 8
      ∧ sequenceFlagsField.get (thirdByteBits f.packetSequenceCount) = 0 := by
  have hmod : f.packetSequenceCount % 16384 = f.packetSequenceCount :=
    BitVec.umod_eq_of_lt fits.packetSequenceCount
  have hcount : ((f.packetSequenceCount >>> 8).setWidth 8 : U8).toNat
      < 2 ^ sequenceCountHighField.width := by
    have := fits.packetSequenceCount
    change _ < 2 ^ 6
    bv_omega
  rw [thirdByteBits_eq_place, hmod]
  exact ⟨BitField.get_place _ hcount, BitField.get_place_of_disjoint (by decide) _⟩

/-- **What the seven getters return** for a header built on zeroed storage from values that fit:
the values, with zero in the place of the sequence flags. -/
theorem fields_header :
    (f.header HeaderStorage.zero.primaryHeader).fields = { f with sequenceFlags := 0 } := by
  obtain ⟨hversion, htype, hflag, hapid⟩ := firstByte_get fits
  obtain ⟨hcount, hflags⟩ := thirdByte_get fits
  have hmod : f.packetSequenceCount % 16384 = f.packetSequenceCount :=
    BitVec.umod_eq_of_lt fits.packetSequenceCount
  have hapidMask : applicationProcessIdMask >>> 8 = apidHighField.mask.setWidth 16 := by decide
  have hcountMask : (0x3f : U16) = sequenceCountHighField.mask.setWidth 16 := by decide
  rw [PrimaryHeaderFields.mk.injEq]
  simp only [fields, decodeVersion, decodeType, decodeSecondaryHeaderFlag, decodeSequenceFlags,
    decodeApplicationProcessIdentifier, decodePacketSequenceCount, decodePacketDataLength,
    header_bytes, hmod, hapidMask, hcountMask]
  refine ⟨hversion, htype, hflag, ?_, hflags, ?_, ?_⟩
  · exact low_or_high rfl hapid
  · exact low_or_high rfl hcount
  · exact BitVec.or_parts f.packetDataLength (by decide)

end Decode

end CcsdsPacketPrimaryHeader

/-- **The primary header round trip.** The header built over zeroed storage from seven values that
fit their fields decodes to exactly those values if and only if the sequence flags are zero. -/
theorem primaryHeader_roundTrip_iff {f : PrimaryHeaderFields} (fits : f.Fits) :
    (f.header HeaderStorage.zero.primaryHeader).fields = f ↔ f.sequenceFlags = 0 := by
  rw [CcsdsPacketPrimaryHeader.fields_header fits]
  constructor
  · intro h
    exact (congrArg PrimaryHeaderFields.sequenceFlags h).symm
  · intro h
    rw [← h]

/-- The round trip at the largest value of every field but the sequence flags. -/
theorem primaryHeader_roundTrip_largest :
    (PrimaryHeaderFields.header ⟨7, 1, 1, 0x7ff, 0, 0x3fff, 0xffff⟩
      HeaderStorage.zero.primaryHeader).fields = ⟨7, 1, 1, 0x7ff, 0, 0x3fff, 0xffff⟩ :=
  (primaryHeader_roundTrip_iff (f := ⟨7, 1, 1, 0x7ff, 0, 0x3fff, 0xffff⟩) (by decide)).mpr rfl

/-- **Sequence flags are lost.** The flags of an unsegmented packet, 3, come back as 0. -/
theorem primaryHeader_roundTrip_unsegmented :
    PrimaryHeaderFields.Fits ⟨0, 1, 1, 0x7ff, 3, 5, 7⟩
      ∧ (PrimaryHeaderFields.header ⟨0, 1, 1, 0x7ff, 3, 5, 7⟩
        HeaderStorage.zero.primaryHeader).fields = ⟨0, 1, 1, 0x7ff, 0, 5, 7⟩
      ∧ (PrimaryHeaderFields.header ⟨0, 1, 1, 0x7ff, 3, 5, 7⟩
        HeaderStorage.zero.primaryHeader).fields ≠ ⟨0, 1, 1, 0x7ff, 3, 5, 7⟩ := by
  decide

/-! ## The identification packet -/

/-- The values of the mandatory fields of an identification packet. -/
structure MandatoryFields where
  groupingDataLength : U16
  compressionTechId : U8
  referenceSampleInterval : U8
  preprocessorStatus : U8
  predictorType : U8
  mapperType : U8
  dataSense : U8
  sampleResolution : U8
  deriving DecidableEq

/-- The values the setters accept and the fields can tell apart; every technique id is one. -/
structure MandatoryFields.Accepted (f : MandatoryFields) : Prop where
  groupingDataLength : f.groupingDataLength < 4096
  referenceSampleInterval : 1 ≤ f.referenceSampleInterval
  preprocessorStatus : f.preprocessorStatus = 0 ∨ f.preprocessorStatus = 1
  predictorType : f.predictorType = 0 ∨ f.predictorType = 1 ∨ f.predictorType = 7
  mapperType : f.mapperType = 0 ∨ f.mapperType = 3
  dataSense : f.dataSense = 0 ∨ f.dataSense = 1
  sampleResolution : 1 ≤ f.sampleResolution ∧ f.sampleResolution ≤ 32

instance (f : MandatoryFields) : Decidable f.Accepted :=
  decidable_of_iff
    (f.groupingDataLength < 4096 ∧ 1 ≤ f.referenceSampleInterval
      ∧ (f.preprocessorStatus = 0 ∨ f.preprocessorStatus = 1)
      ∧ (f.predictorType = 0 ∨ f.predictorType = 1 ∨ f.predictorType = 7)
      ∧ (f.mapperType = 0 ∨ f.mapperType = 3) ∧ (f.dataSense = 0 ∨ f.dataSense = 1)
      ∧ 1 ≤ f.sampleResolution ∧ f.sampleResolution ≤ 32)
    ⟨fun ⟨h1, h2, h3, h4, h5, h6, h7⟩ => ⟨h1, h2, h3, h4, h5, h6, h7⟩,
      fun ⟨h1, h2, h3, h4, h5, h6, h7⟩ => ⟨h1, h2, h3, h4, h5, h6, h7⟩⟩

/-- The identification packet built from the eight values and three others, over zeroed storage. -/
def MandatoryFields.packet (f : MandatoryFields) (blockSize csdPerPacket : U16)
    (restrictedCodes : U8) : CompressionIdentificationPacket :=
  CompressionIdentificationPacket.construct HeaderStorage.zero.sourceDataFixed
    HeaderStorage.zero.sourceDataVariable f.groupingDataLength f.compressionTechId
    f.referenceSampleInterval f.preprocessorStatus f.predictorType f.mapperType blockSize
    f.dataSense f.sampleResolution csdPerPacket restrictedCodes

namespace CompressionIdentificationPacket

/-- The getters of the mandatory fields. -/
def mandatoryFields (c : CompressionIdentificationPacket) : MandatoryFields :=
  { groupingDataLength := c.decodeGroupingDataLength
    compressionTechId := c.decodeCompressionTechniqueId
    referenceSampleInterval := c.decodeReferenceSampleInterval
    preprocessorStatus := c.decodePreprocessorStatus
    predictorType := c.decodePreprocessorPredictorType
    mapperType := c.decodePreprocessorMapperType
    dataSense := c.decodePreprocessorDataSense
    sampleResolution := c.decodePreprocessorSampleResolution }

/-- The status, in the first Preprocessor byte. -/
def statusField : BitField 8 := ⟨5, 1, Nat.le_add_right 6 2⟩

/-- The predictor type, in the first Preprocessor byte. -/
def predictorTypeField : BitField 8 := ⟨2, 3, by decide⟩

/-- The mapper type, in the first Preprocessor byte. -/
def mapperTypeField : BitField 8 := ⟨0, 2, by decide⟩

/-- Subtracting one in `int` and adding it back in `uint8_t` loses nothing, not even for 0. -/
theorem intervalByte_add_one (interval : U8) : intervalByte interval + 1 = interval := by
  revert interval
  decide

section Mandatory

variable {f : MandatoryFields} (accepted : f.Accepted)

include accepted

/-- The three fields of the first Preprocessor byte are read back. -/
theorem preprocessorByte_get :
    let byte := statusBits f.preprocessorStatus
      ||| (predictorTypeBits f.predictorType ||| mapperTypeBits f.mapperType)
    statusField.get byte = f.preprocessorStatus ∧ predictorTypeField.get byte = f.predictorType
      ∧ mapperTypeField.get byte = f.mapperType := by
  -- twelve accepted triples
  rcases accepted.preprocessorStatus with hs | hs <;>
    rcases accepted.predictorType with hp | hp | hp <;>
    rcases accepted.mapperType with hm | hm <;>
    rw [hs, hp, hm] <;> decide

/-- The data sense is read back; of the sample resolution the low five bits are. -/
theorem sampleByte_get (blockSize : U16) :
    let byte := preprocessorBlockSizeBits blockSize
      ||| (dataSenseBits f.dataSense ||| sampleResolutionBits f.sampleResolution)
    dataSenseField.get byte = f.dataSense
      ∧ sampleResolutionField.get byte = f.sampleResolution &&& 0x1f := by
  have hsense : (if f.dataSense = 1 then 1 else 0) = f.dataSense := by
    rcases accepted.dataSense with h | h <;> rw [h] <;> decide
  have hplace : sampleResolutionBits f.sampleResolution
      = sampleResolutionField.place (f.sampleResolution &&& 0x1f) := by
    rw [sampleResolutionBits, if_pos accepted.sampleResolution,
      sampleResolutionField.place_eq_shiftLeft]
    simp [sampleResolutionField, BitVec.and_assoc]
  have hfits : f.dataSense.toNat < 2 ^ dataSenseField.width := by
    rcases accepted.dataSense with h | h <;> rw [h] <;> decide
  have hlow : (f.sampleResolution &&& 0x1f).toNat < 2 ^ sampleResolutionField.width := by
    rw [BitVec.toNat_and]
    exact Nat.and_lt_two_pow _ (by decide)
  rw [preprocessorBlockSizeBits_eq_place, dataSenseBits_eq_place, hsense, hplace]
  simp (disch := decide) only [BitField.get_or, BitField.get_place_of_disjoint]
  rw [BitField.get_place _ hfits, BitField.get_place _ hlow]
  simp

/-- **What the eight getters return** for a packet built from accepted values, whatever the block
size, the CDS count and the restricted-code option: the values, with the sample resolution cut to
five bits. -/
theorem mandatoryFields_packet (blockSize csdPerPacket : U16) (restrictedCodes : U8) :
    (f.packet blockSize csdPerPacket restrictedCodes).mandatoryFields
      = { f with sampleResolution := f.sampleResolution &&& 0x1f } := by
  obtain ⟨hstatus, hpredictor, hmapper⟩ := preprocessorByte_get accepted
  obtain ⟨hsense, hresolution⟩ := sampleByte_get accepted blockSize
  have hmod : f.groupingDataLength % 4096 = f.groupingDataLength :=
    BitVec.umod_eq_of_lt accepted.groupingDataLength
  have hfixed : ∀ i, HeaderStorage.zero.sourceDataFixed.get i = 0#8 := by decide
  have hstorage : ∀ i, HeaderStorage.zero.sourceDataVariable.preprocessor.get i = 0#8 := by decide
  rw [MandatoryFields.mk.injEq]
  simp only [mandatoryFields, decodeGroupingDataLength, decodeCompressionTechniqueId,
    decodeReferenceSampleInterval, decodePreprocessorStatus, decodePreprocessorPredictorType,
    decodePreprocessorMapperType, decodePreprocessorDataSense, decodePreprocessorSampleResolution,
    MandatoryFields.packet, construct_fixed, construct_preprocessor, hfixed, hstorage, hmod,
    BitVec.zero_or, bytes2_get_zero, bytes2_get_one]
  refine ⟨?_, rfl, ?_, hstatus, hpredictor, hmapper, hsense, hresolution⟩
  · exact BitVec.or_parts f.groupingDataLength (by decide)
  · exact intervalByte_add_one f.referenceSampleInterval

end Mandatory

end CompressionIdentificationPacket

/-- Five bits hold every accepted sample resolution but 32. -/
theorem sampleResolution_kept_iff {resolution : U8} (h : 1 ≤ resolution ∧ resolution ≤ 32) :
    resolution &&& 0x1f = resolution ↔ resolution ≠ 32 := by
  revert resolution
  decide

/-- **The round trip of the mandatory fields.** For accepted values and every block size, CDS count
and restricted-code option, the packet built over zeroed storage decodes to exactly those values if
and only if the sample resolution is not 32. -/
theorem mandatoryFields_roundTrip_iff {f : MandatoryFields} (accepted : f.Accepted)
    (blockSize csdPerPacket : U16) (restrictedCodes : U8) :
    (f.packet blockSize csdPerPacket restrictedCodes).mandatoryFields = f
      ↔ f.sampleResolution ≠ 32 := by
  rw [CompressionIdentificationPacket.mandatoryFields_packet accepted,
    ← sampleResolution_kept_iff accepted.sampleResolution]
  constructor
  · intro h
    exact congrArg MandatoryFields.sampleResolution h
  · intro h
    rw [h]

/-- The round trip at the largest values, with a block size and a CDS count that no setter
accepts. -/
theorem mandatoryFields_roundTrip_largest :
    (MandatoryFields.packet ⟨0xfff, 0xff, 0xff, 1, 7, 3, 1, 31⟩ 0 0 9).mandatoryFields
      = ⟨0xfff, 0xff, 0xff, 1, 7, 3, 1, 31⟩ :=
  (mandatoryFields_roundTrip_iff (f := ⟨0xfff, 0xff, 0xff, 1, 7, 3, 1, 31⟩) (by decide) 0 0 9).mpr
    (by decide)

/-- **A sample resolution of 32 is lost**: it comes back as 0. -/
theorem mandatoryFields_roundTrip_thirtyTwo :
    MandatoryFields.Accepted ⟨0, 1, 1, 1, 7, 0, 1, 32⟩
      ∧ (MandatoryFields.packet ⟨0, 1, 1, 1, 7, 0, 1, 32⟩ 64 1 0).mandatoryFields
        = ⟨0, 1, 1, 1, 7, 0, 1, 0⟩
      ∧ (MandatoryFields.packet ⟨0, 1, 1, 1, 7, 0, 1, 32⟩ 64 1 0).mandatoryFields
        ≠ ⟨0, 1, 1, 1, 7, 0, 1, 32⟩ := by
  decide

end IQzip
