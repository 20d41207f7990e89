import IQzip.FieldRoundTrip
import IQzip.Library.Layout

/-! # The header as a layout

The format of the header as a table: one field after the other, with its width and what it holds of
the configuration. `headerFile_layout` says that `write_header_to_file` emits the table bit for
bit, and `sameFile_iff` says which configurations the header tells apart. -/

namespace IQzip

open Library IqzipCompressionHeader CompressionIdentificationPacket

/-! ## The table -/

/-- The code of the resolution range, two bits of the Entropy Coder subfield. -/
def resolutionRangeCode (resolution : U8) : BitVec 2 :=
  if resolution ≤ 8 then 1 else if resolution ≤ 16 then 2 else 3

/-- The code of the block size in the Extended Parameters. -/
def extendedBlockSizeCode (size : U16) : BitVec 4 :=
  if size = 8 then 0 else if size = 16 then 1 else if size = 32 then 2 else if size = 64 then 3
  else 15

/-- The primary header. -/
def primaryHeaderLayout : Layout Config :=
  -- the flag is not cut to its bit and runs over into the type and the version
  [⟨3, fun cfg => (cfg.version ||| cfg.secHdrFlag >>> 2).setWidth 3⟩,
    ⟨1, fun cfg => (cfg.type ||| cfg.secHdrFlag >>> 1).setWidth 1⟩,
    ⟨1, fun cfg => cfg.secHdrFlag.setWidth 1⟩,
    ⟨11, fun cfg => cfg.apid.setWidth 11⟩,
    -- the sequence flags are shifted out of their field
    ⟨2, fun _ => 0⟩,
    ⟨14, fun cfg => cfg.packetSequenceCount.setWidth 14⟩,
    ⟨16, fun cfg => cfg.packetDataLength⟩]

/-- The fixed part of the source data field. -/
def sourceDataFixedLayout : Layout Config :=
  [⟨4, fun _ => 0⟩,
    ⟨12, fun cfg => cfg.groupingDataLength.setWidth 12⟩,
    ⟨8, fun cfg => cfg.compressionTechId⟩,
    ⟨8, fun cfg => cfg.referenceSampleInterval - 1⟩]

/-- The Preprocessor subfield. -/
def preprocessorLayout : Layout Config :=
  [⟨2, fun _ => 0⟩,
    ⟨1, fun cfg => cfg.preprocessorStatus.setWidth 1⟩,
    ⟨3, fun cfg => cfg.predictorType.setWidth 3⟩,
    ⟨2, fun cfg => cfg.mapperType.setWidth 2⟩,
    ⟨2, fun cfg => (preprocessorBlockSizeCode cfg.blockSize).setWidth 2⟩,
    ⟨1, fun cfg => cfg.dataSense.setWidth 1⟩,
    ⟨5, fun cfg => cfg.sampleResolution.setWidth 5⟩]

/-- The Entropy Coder subfield. -/
def entropyCoderLayout : Layout Config :=
  [⟨2, fun _ => 1⟩,
    ⟨2, fun cfg => resolutionRangeCode cfg.sampleResolution⟩,
    ⟨12, fun cfg => cfg.cdsPerPacket.setWidth 12⟩]

/-- The segments that every header has. -/
def mandatoryLayout : Layout Config :=
  primaryHeaderLayout ++ (sourceDataFixedLayout ++ (preprocessorLayout ++ entropyCoderLayout))

/-- The Extended Parameters subfield. -/
def extendedParametersLayout : Layout Config :=
  [⟨2, fun _ => 3⟩,
    ⟨2, fun _ => 0⟩,
    ⟨4, fun cfg => extendedBlockSizeCode cfg.blockSize⟩,
    ⟨1, fun _ => 0⟩,
    ⟨1, fun cfg => cfg.restrictedCodes.setWidth 1⟩,
    ⟨2, fun _ => 0⟩,
    ⟨4, fun cfg => (cfg.referenceSampleInterval - 1).setWidth 4⟩]

/-- The interval in the extension: eleven bits, one less than the argument. -/
def Config.extensionInterval (cfg : Config) : BitVec 11 :=
  cfg.referenceSampleInterval.setWidth 11 - 1

/-- The extension. Its 16-bit unit goes out low byte first, which cuts the interval in two. -/
def extensionLayout : Layout Config :=
  [⟨4, fun cfg => cfg.extensionInterval.setWidth 4⟩,
    ⟨4, fun cfg => iqzipBlockSizeCode cfg.blockSize.toNat⟩,
    ⟨1, fun cfg => cfg.endianness.setWidth 1⟩,
    ⟨7, fun cfg => (cfg.extensionInterval >>> 4).setWidth 7⟩]

/-- The configuration brings the Extended Parameters. -/
def Config.Extended (cfg : Config) : Prop := cfg.blockSize > 16 ∨ cfg.restrictedCodes ≠ 0

instance (cfg : Config) : Decidable cfg.Extended := inferInstanceAs (Decidable (_ ∨ _))

/-- The optional segments of a configuration. -/
def Config.optionalLayout (cfg : Config) : Layout Config :=
  (if cfg.Extended then extendedParametersLayout else [])
    ++ (if cfg.blockSize > 64 then extensionLayout else [])

/-- The layout of the header of a configuration. -/
def Config.headerLayout (cfg : Config) : Layout Config := mandatoryLayout ++ cfg.optionalLayout

/-! ## The writer emits the table -/

section Writer

attribute [local simp] byteBits wordBits List.ofFn_succ BitVec.getMsbD_eq_getLsbD

/-- The six bytes of the primary header. -/
theorem primaryHeader_layout (cfg : Config) :
    byteBits (zeroedHeader cfg).dPrimaryHeader.dPrimaryHeader.toList
      = primaryHeaderLayout.render cfg := by
  have hzero : ∀ i, HeaderStorage.zero.primaryHeader.get i = 0#8 := by decide
  have hcount := umod_eq_setWidth cfg.packetSequenceCount 16384 (show 14 < 16 by decide) rfl
  simp only [zeroedHeader, construct_primaryHeader, hzero, BitVec.zero_or, toList_bytes6,
    CcsdsPacketPrimaryHeader.firstByteBits, CcsdsPacketPrimaryHeader.thirdByteBits, hcount]
  simp [primaryHeaderLayout, applicationProcessIdMask]

/-- Subtracting one in `int` wraps as a byte does. -/
theorem intervalByte_eq (interval : U8) : intervalByte interval = interval - 1 :=
  BitVec.eq_sub_iff_add_eq.mpr (intervalByte_add_one interval)

/-- The four bytes of the fixed part. -/
theorem sourceDataFixed_layout (cfg : Config) :
    byteBits (zeroedHeader cfg).dCip.dSourceDataFixed.toList
      = sourceDataFixedLayout.render cfg := by
  have hzero : ∀ i, HeaderStorage.zero.sourceDataFixed.get i = 0#8 := by decide
  have hlength := umod_eq_setWidth cfg.groupingDataLength 4096 (show 12 < 16 by decide) rfl
  simp only [zeroedHeader, construct_sourceDataFixed, hzero, BitVec.zero_or, toList_bytes4,
    intervalByte_eq, hlength]
  simp [sourceDataFixedLayout]

/-- The interval of the extension, computed in `int` and stored in eleven bits. -/
theorem extensionInterval_eq (cfg : Config) :
    BitVec.ofInt 11 (((cfg.referenceSampleInterval.setWidth 16 : U16).toNat - 1 : Int).tmod 2048)
      = cfg.extensionInterval := by
  have hall : ∀ interval : U8,
      BitVec.ofInt 11 (((interval.setWidth 16 : U16).toNat - 1 : Int).tmod 2048)
        = interval.setWidth 11 - 1 := by decide
  exact hall cfg.referenceSampleInterval

section Legal

variable {cfg : Config} (legal : cfg.Legal)

include legal

/-- The Preprocessor subfield: every setter writes its code inside its field. -/
theorem preprocessor_layout :
    byteBits (zeroedHeader cfg).dCip.dSourceDataVariable.preprocessor.toList
      = preprocessorLayout.render cfg := by
  have hzero : ∀ i, HeaderStorage.zero.sourceDataVariable.preprocessor.get i = 0#8 := by decide
  have hstatus : statusBits cfg.preprocessorStatus
      = (cfg.preprocessorStatus.setWidth 1).setWidth 8 <<< 5 := by
    rcases legal.preprocessorStatus with h | h <;> rw [h] <;> rfl
  have hpredictor : predictorTypeBits cfg.predictorType
      = (cfg.predictorType.setWidth 3).setWidth 8 <<< 2 := by
    rcases legal.predictorType with h | h | h <;> rw [h] <;> rfl
  have hmapper : mapperTypeBits cfg.mapperType = (cfg.mapperType.setWidth 2).setWidth 8 := by
    rcases legal.mapperType with h | h <;> rw [h] <;> rfl
  have hcode : preprocessorBlockSizeBits cfg.blockSize
      = preprocessorBlockSizeCode cfg.blockSize <<< 6 := by
    unfold preprocessorBlockSizeBits preprocessorBlockSizeCode
    split_ifs <;> rfl
  have hsense : dataSenseBits cfg.dataSense = (cfg.dataSense.setWidth 1).setWidth 8 <<< 5 := by
    rcases legal.dataSense with h | h <;> rw [h] <;> rfl
  simp only [zeroedHeader, construct_sourceDataVariable _ _ legal.cdsPerPacket, hzero,
    BitVec.zero_or, toList_bytes2, hstatus, hpredictor, hmapper, hcode, hsense,
    sampleResolutionBits, if_pos legal.sampleResolution]
  simp [preprocessorLayout]

/-- The Entropy Coder subfield. -/
theorem entropyCoder_layout :
    byteBits (zeroedHeader cfg).dCip.dSourceDataVariable.entropyCoder.toList
      = entropyCoderLayout.render cfg := by
  have hzero : ∀ i, HeaderStorage.zero.sourceDataVariable.entropyCoder.get i = 0#8 := by decide
  have hrange : resolutionRangeBits cfg.sampleResolution
      = (resolutionRangeCode cfg.sampleResolution).setWidth 8 <<< 4 := by
    have hres := legal.sampleResolution
    have hne : cfg.sampleResolution ≠ 0 := by bv_omega
    rw [resolutionRangeBits, resolutionRangeCode, if_neg hne]
    split_ifs <;> first | rfl | bv_omega
  simp only [zeroedHeader, construct_sourceDataVariable _ _ legal.cdsPerPacket, hzero,
    BitVec.zero_or, toList_bytes2, hrange]
  simp [entropyCoderLayout, entropyCoderCdsesNumMask]

/-- The Extended Parameters, which hold nothing of the storage. -/
theorem extendedParameters_layout :
    byteBits (zeroedHeader cfg).dCip.dSourceDataVariable.extendedParameters.toList
      = extendedParametersLayout.render cfg := by
  have hcode : extendedBlockSizeBits cfg.blockSize
      = (extendedBlockSizeCode cfg.blockSize).setWidth 8 := by
    unfold extendedBlockSizeBits extendedBlockSizeCode
    simp only [legal.blockSize, false_or]
    split_ifs <;> rfl
  have hcodes : restrictedCodeBits cfg.restrictedCodes
      = (cfg.restrictedCodes.setWidth 1).setWidth 8 <<< 6 := by
    rcases legal.restrictedCodes with h | h <;> rw [h] <;> rfl
  simp only [zeroedHeader, construct_sourceDataVariable _ _ legal.cdsPerPacket, toList_bytes2,
    hcode, hcodes, intervalByte_eq]
  simp [extendedParametersLayout]

/-- The extension, low byte first. -/
theorem extension_layout :
    byteBits (zeroedHeader cfg).dIqzipHeader.toBytes = extensionLayout.render cfg := by
  rw [zeroedHeader, construct_dIqzipHeader _ _ legal.endianness, extensionInterval_eq]
  simp [extensionLayout, IqzipHeaderFields.toBytes, IqzipHeaderFields.toWord]

/-- The mandatory segments are their part of the table. -/
theorem mandatoryBytes_layout :
    byteBits (zeroedHeader cfg).mandatoryBytes = mandatoryLayout.render cfg := by
  rw [mandatoryBytes, byteBits_append, byteBits_append, byteBits_append, primaryHeader_layout,
    sourceDataFixed_layout, preprocessor_layout legal, entropyCoder_layout legal, mandatoryLayout,
    Layout.render_append, Layout.render_append, Layout.render_append, List.append_assoc,
    List.append_assoc]

/-- So are the optional ones: an interval of one byte does not bring the Extended Parameters. -/
theorem optionalBytes_layout :
    byteBits (zeroedHeader cfg).optionalBytes = cfg.optionalLayout.render cfg := by
  have hrsi : ¬ (cfg.referenceSampleInterval.setWidth 16 : U16) > 255 := by
    have := cfg.referenceSampleInterval.isLt
    bv_omega
  have hext : (zeroedHeader cfg).dBlockSize > 16 ∨ (zeroedHeader cfg).dRsi > 255
      ∨ (zeroedHeader cfg).dRestrictedCodes ≠ 0 ↔ cfg.Extended := by
    simp only [zeroedHeader, construct_dBlockSize, construct_dRsi, construct_dRestrictedCodes,
      hrsi, false_or, Config.Extended]
  have hlarge : (zeroedHeader cfg).dBlockSize > 64 ↔ cfg.blockSize > 64 := by
    simp only [zeroedHeader, construct_dBlockSize]
  rw [optionalBytes, Config.optionalLayout, byteBits_append, Layout.render_append,
    apply_ite byteBits, apply_ite byteBits, extendedParameters_layout legal,
    extension_layout legal, apply_ite (Layout.render · cfg), apply_ite (Layout.render · cfg)]
  simp only [hext, hlarge, byteBits_nil, Layout.render_nil]

end Legal

/-- **The header file is its table.** For every legal configuration `write_header_to_file` leaves in
the file the fields of the layout, one after the other, and nothing else. -/
theorem headerFile_layout {cfg : Config} (legal : cfg.Legal) {fs : FileSystem} {path : String}
    (hw : fs.writable path = true) :
    ∃ bytes, (zeroedHeader cfg).writeHeaderToFile fs path = .ok (fs.put path bytes)
      ∧ byteBits bytes = cfg.headerLayout.render cfg := by
  refine ⟨_, if_pos hw, ?_⟩
  rw [headerBytes_eq, byteBits_append, mandatoryBytes_layout legal, optionalBytes_layout legal,
    Config.headerLayout, Layout.render_append]

/-- The header of the tool for block size 128: eighteen bytes. -/
theorem headerFile_commandLine :
    ∃ bytes, (zeroedHeader (commandLineConfig 1 1 1 0 8 1 128)).writeHeaderToFile FileSystem.empty
        "out.iqz" = .ok (FileSystem.empty.put "out.iqz" bytes)
      ∧ byteBits bytes = (commandLineConfig 1 1 1 0 8 1 128).headerLayout.render
        (commandLineConfig 1 1 1 0 8 1 128) :=
  headerFile_layout (by decide) rfl

end Writer

/-! ## What the header tells apart -/

/-- The block sizes with a code of their own. -/
def codedSizes : List Nat := [8, 16, 32, 64] ++ extensionSizes

/-- The block sizes that the header does not tell apart: sizes without a code of their own, which
bring the same segments. -/
def Config.SameSize (a b : Config) : Prop :=
  a.blockSize = b.blockSize
    ∨ (a.blockSize.toNat ∉ codedSizes ∧ b.blockSize.toNat ∉ codedSizes
      ∧ (a.Extended ↔ b.Extended) ∧ (a.blockSize > 64 ↔ b.blockSize > 64))

/-- What two configurations with the same header have in common. The secondary header flag is one
bit wide; what it has above that is added to the type and the version. -/
structure Config.SameHeader (a b : Config) : Prop where
  version : (a.version ||| a.secHdrFlag >>> 2).setWidth 3
    = (b.version ||| b.secHdrFlag >>> 2).setWidth 3
  type : (a.type ||| a.secHdrFlag >>> 1).setWidth 1 = (b.type ||| b.secHdrFlag >>> 1).setWidth 1
  secHdrFlag : a.secHdrFlag.setWidth 1 = b.secHdrFlag.setWidth 1
  apid : a.apid.setWidth 11 = b.apid.setWidth 11
  packetSequenceCount : a.packetSequenceCount.setWidth 14 = b.packetSequenceCount.setWidth 14
  packetDataLength : a.packetDataLength = b.packetDataLength
  groupingDataLength : a.groupingDataLength.setWidth 12 = b.groupingDataLength.setWidth 12
  compressionTechId : a.compressionTechId = b.compressionTechId
  referenceSampleInterval : a.referenceSampleInterval = b.referenceSampleInterval
  preprocessorStatus : a.preprocessorStatus = b.preprocessorStatus
  predictorType : a.predictorType = b.predictorType
  mapperType : a.mapperType = b.mapperType
  blockSize : a.SameSize b
  dataSense : a.dataSense = b.dataSense
  sampleResolution : a.sampleResolution = b.sampleResolution
  cdsPerPacket : a.cdsPerPacket = b.cdsPerPacket
  restrictedCodes : a.restrictedCodes = b.restrictedCodes
  endianness : a.blockSize > 64 → a.endianness = b.endianness

section Codes

variable {size : U16}

/-- The first two Preprocessor codes are those of one size each. -/
theorem size_of_preprocessorCode (hsize : size ≠ 0) (hown : preprocessorBlockSizeCode size < 2) :
    size.toNat = 8 * 2 ^ (preprocessorBlockSizeCode size).toNat := by
  revert hown
  unfold preprocessorBlockSizeCode
  simp only [hsize, false_or]
  split_ifs with h8 h16 <;> intro hown
  · rw [h8]
    rfl
  · rw [h16]
    rfl
  · exact absurd hown (by decide)
  · exact absurd hown (by decide)

/-- So are the codes of the Extended Parameters, except the last. -/
theorem size_of_extendedCode (hown : extendedBlockSizeCode size ≠ 15) :
    size.toNat = 8 * 2 ^ (extendedBlockSizeCode size).toNat := by
  revert hown
  unfold extendedBlockSizeCode
  split_ifs <;> intro hown <;> simp_all

/-- So are the codes of the extension, except the first. -/
theorem size_of_extensionCode {n : Nat} (hown : iqzipBlockSizeCode n ≠ 0) :
    n = 128 * 2 ^ (iqzipBlockSizeCode n).toNat := by
  revert hown
  unfold iqzipBlockSizeCode
  split_ifs <;> intro hown <;> simp_all

/-- A coded size has a code of its own in a segment that it brings. -/
theorem ownCode_of_coded (hcoded : size.toNat ∈ codedSizes) :
    preprocessorBlockSizeCode size < 2 ∨ (size > 16 ∧ extendedBlockSizeCode size ≠ 15)
      ∨ (size > 64 ∧ iqzipBlockSizeCode size.toNat ≠ 0) := by
  have hall : ∀ n ∈ codedSizes, preprocessorBlockSizeCode (BitVec.ofNat 16 n) < 2
      ∨ ((BitVec.ofNat 16 n) > 16 ∧ extendedBlockSizeCode (BitVec.ofNat 16 n) ≠ 15)
      ∨ ((BitVec.ofNat 16 n) > 64 ∧ iqzipBlockSizeCode (BitVec.ofNat 16 n).toNat ≠ 0) := by
    decide
  have h := hall _ hcoded
  rwa [BitVec.ofNat_toNat, BitVec.setWidth_eq] at h

/-- The other sizes have the codes that stand for no size. -/
theorem codes_of_uncoded (hsize : size ≠ 0) (huncoded : size.toNat ∉ codedSizes) :
    preprocessorBlockSizeCode size = 3 ∧ extendedBlockSizeCode size = 15
      ∧ iqzipBlockSizeCode size.toNat = 0 := by
  have hne : ∀ n ∈ codedSizes, size.toNat ≠ n := fun n hn h => huncoded (h ▸ hn)
  have h8 : size ≠ 8 := fun h => hne 8 (by decide) (h ▸ rfl)
  have h16 : size ≠ 16 := fun h => hne 16 (by decide) (h ▸ rfl)
  have h32 : size ≠ 32 := fun h => hne 32 (by decide) (h ▸ rfl)
  have h64 : size ≠ 64 := fun h => hne 64 (by decide) (h ▸ rfl)
  refine ⟨?_, ?_, ?_⟩
  · simp only [preprocessorBlockSizeCode, hsize, h8, h16, h32, h64, or_self, if_false]
  · simp only [extendedBlockSizeCode, h8, h16, h32, h64, if_false]
  · have hmem : size.toNat ∉ extensionSizes := fun h => huncoded (List.mem_append_right _ h)
    simp only [extensionSizes, List.mem_cons, List.not_mem_nil, or_false, not_or] at hmem
    simp [iqzipBlockSizeCode, hmem]

end Codes

/-- The codes in the segments that two configurations bring tell a coded size from any other. -/
theorem Config.blockSize_eq_of_coded {a b : Config} (legal : a.Legal) (legal' : b.Legal)
    (hpre : preprocessorBlockSizeCode a.blockSize = preprocessorBlockSizeCode b.blockSize)
    (hext : a.Extended → extendedBlockSizeCode a.blockSize = extendedBlockSizeCode b.blockSize)
    (hlarge : a.blockSize > 64
      → iqzipBlockSizeCode a.blockSize.toNat = iqzipBlockSizeCode b.blockSize.toNat)
    (hcoded : a.blockSize.toNat ∈ codedSizes) : a.blockSize = b.blockSize := by
  apply BitVec.eq_of_toNat_eq
  rcases ownCode_of_coded hcoded with hown | ⟨h16, hown⟩ | ⟨h64, hown⟩
  · rw [size_of_preprocessorCode legal.blockSize hown, hpre,
      ← size_of_preprocessorCode legal'.blockSize (hpre ▸ hown)]
  · have hcode := hext (Or.inl h16)
    rw [size_of_extendedCode hown, hcode, ← size_of_extendedCode (hcode ▸ hown)]
  · have hcode := hlarge h64
    rw [size_of_extensionCode hown, hcode, ← size_of_extensionCode (hcode ▸ hown)]

/-- **The block-size codes of two headers agree exactly when the sizes are not told apart.** -/
theorem Config.sameSize_iff {a b : Config} (legal : a.Legal) (legal' : b.Legal)
    (hcodes : a.restrictedCodes = b.restrictedCodes) :
    a.SameSize b
      ↔ preprocessorBlockSizeCode a.blockSize = preprocessorBlockSizeCode b.blockSize
        ∧ ((a.Extended ↔ b.Extended) ∧ (a.blockSize > 64 ↔ b.blockSize > 64))
        ∧ (a.Extended → extendedBlockSizeCode a.blockSize = extendedBlockSizeCode b.blockSize)
        ∧ (a.blockSize > 64
          → iqzipBlockSizeCode a.blockSize.toNat = iqzipBlockSizeCode b.blockSize.toNat) := by
  constructor
  · rintro (hsize | ⟨ha, hb, hext, hlarge⟩)
    · simp only [Config.Extended, hsize, hcodes, and_self, implies_true]
    · obtain ⟨hpre, hcode, hzero⟩ := codes_of_uncoded legal.blockSize ha
      obtain ⟨hpre', hcode', hzero'⟩ := codes_of_uncoded legal'.blockSize hb
      exact ⟨hpre.trans hpre'.symm, ⟨hext, hlarge⟩, fun _ => hcode.trans hcode'.symm,
        fun _ => hzero.trans hzero'.symm⟩
  · rintro ⟨hpre, ⟨hext, hlarge⟩, hcode, hzero⟩
    by_cases ha : a.blockSize.toNat ∈ codedSizes
    · exact Or.inl (Config.blockSize_eq_of_coded legal legal' hpre hcode hzero ha)
    by_cases hb : b.blockSize.toNat ∈ codedSizes
    · exact Or.inl (Config.blockSize_eq_of_coded legal' legal hpre.symm
        (fun h => (hcode (hext.mpr h)).symm) (fun h => (hzero (hlarge.mpr h)).symm) hb).symm
    · exact Or.inr ⟨ha, hb, hext, hlarge⟩

/-! ### Segments -/

/-- The extension comes with the Extended Parameters. -/
theorem Config.extended_of_large {cfg : Config} (h : cfg.blockSize > 64) : cfg.Extended :=
  Or.inl (by bv_omega)

/-- Two bytes for each optional segment. -/
theorem length_optionalLayout (cfg : Config) :
    (cfg.optionalLayout.render cfg).length
      = (if cfg.Extended then 16 else 0) + (if cfg.blockSize > 64 then 16 else 0) := by
  rw [Config.optionalLayout, Layout.render_append, List.length_append]
  congr 1
  · split_ifs <;> rfl
  · split_ifs <;> rfl

/-- **The optional segments** of two headers agree when the same ones are there and agree. -/
theorem optionalLayout_iff (a b : Config) :
    a.optionalLayout.render a = b.optionalLayout.render b
      ↔ ((a.Extended ↔ b.Extended) ∧ (a.blockSize > 64 ↔ b.blockSize > 64))
        ∧ (a.Extended → extendedParametersLayout.render a = extendedParametersLayout.render b)
        ∧ (a.blockSize > 64 → extensionLayout.render a = extensionLayout.render b) := by
  constructor
  · intro h
    have hpresent : (a.Extended ↔ b.Extended) ∧ (a.blockSize > 64 ↔ b.blockSize > 64) := by
      -- the length says which segments there are
      have hlen := congrArg List.length h
      rw [length_optionalLayout, length_optionalLayout] at hlen
      have ha := @Config.extended_of_large a
      have hb := @Config.extended_of_large b
      grind
    obtain ⟨hext, hlarge⟩ := hpresent
    rw [Config.optionalLayout, Config.optionalLayout, Layout.render_append,
      Layout.render_append] at h
    simp only [← hext, ← hlarge] at h
    obtain ⟨hfirst, hsecond⟩ := List.append_inj h (by split_ifs <;> rfl)
    refine ⟨⟨hext, hlarge⟩, fun hp => ?_, fun hp => ?_⟩
    · rwa [if_pos hp] at hfirst
    · rwa [if_pos hp] at hsecond
  · rintro ⟨⟨hext, hlarge⟩, hfirst, hsecond⟩
    rw [Config.optionalLayout, Config.optionalLayout, Layout.render_append, Layout.render_append]
    simp only [← hext, ← hlarge]
    congr 1
    · split_ifs with hp
      · exact hfirst hp
      · rfl
    · split_ifs with hp
      · exact hsecond hp
      · rfl

/-- The files agree exactly when the fields do. -/
theorem writeHeaderToFile_iff {a b : Config} (legal : a.Legal) (legal' : b.Legal)
    {fs : FileSystem} {path : String} (hw : fs.writable path = true) :
    (zeroedHeader a).writeHeaderToFile fs path = (zeroedHeader b).writeHeaderToFile fs path
      ↔ mandatoryLayout.render a = mandatoryLayout.render b
        ∧ a.optionalLayout.render a = b.optionalLayout.render b := by
  rw [← mandatoryBytes_layout legal, ← mandatoryBytes_layout legal', ← optionalBytes_layout legal,
    ← optionalBytes_layout legal', byteBits_injective.eq_iff, byteBits_injective.eq_iff,
    writeHeaderToFile, writeHeaderToFile, if_pos hw, if_pos hw, headerBytes_eq, headerBytes_eq]
  constructor
  · intro h
    have hbytes := congrArg (fun gs => FileSystem.bytesAt gs path) (Except.ok.inj h)
    simp only [FileSystem.bytesAt_put_self] at hbytes
    exact List.append_inj hbytes (by simp)
  · rintro ⟨hmandatory, hoptional⟩
    rw [hmandatory, hoptional]

/-! ### Fields -/

/-- The Extended Parameters of two headers agree exactly when these fields do. -/
theorem extendedParametersLayout_iff (a b : Config) :
    extendedParametersLayout.render a = extendedParametersLayout.render b
      ↔ extendedBlockSizeCode a.blockSize = extendedBlockSizeCode b.blockSize
        ∧ a.restrictedCodes.setWidth 1 = b.restrictedCodes.setWidth 1
        ∧ (a.referenceSampleInterval - 1).setWidth 4
          = (b.referenceSampleInterval - 1).setWidth 4 := by
  rw [Layout.render_eq_iff]
  simp only [extendedParametersLayout, List.forall_mem_cons, List.not_mem_nil, false_imp_iff,
    implies_true, and_true, true_and]

/-- The extensions agree exactly when these fields do. -/
theorem extensionLayout_iff (a b : Config) :
    extensionLayout.render a = extensionLayout.render b
      ↔ a.extensionInterval.setWidth 4 = b.extensionInterval.setWidth 4
        ∧ iqzipBlockSizeCode a.blockSize.toNat = iqzipBlockSizeCode b.blockSize.toNat
        ∧ a.endianness.setWidth 1 = b.endianness.setWidth 1
        ∧ (a.extensionInterval >>> 4).setWidth 7 = (b.extensionInterval >>> 4).setWidth 7 := by
  rw [Layout.render_eq_iff]
  simp only [extensionLayout, List.forall_mem_cons, List.not_mem_nil, false_imp_iff,
    implies_true, and_true]

/-- The codes of a legal configuration fit their fields. -/
theorem Config.Legal.codes_lt {cfg : Config} (legal : cfg.Legal) :
    cfg.preprocessorStatus.toNat < 2 ^ 1 ∧ cfg.predictorType.toNat < 2 ^ 3
      ∧ cfg.mapperType.toNat < 2 ^ 2 ∧ cfg.dataSense.toNat < 2 ^ 1
      ∧ cfg.restrictedCodes.toNat < 2 ^ 1 ∧ cfg.endianness.toNat < 2 ^ 1 := by
  refine ⟨?_, ?_, ?_, ?_, ?_, ?_⟩
  · rcases legal.preprocessorStatus with h | h <;> rw [h] <;> decide
  · rcases legal.predictorType with h | h | h <;> rw [h] <;> decide
  · rcases legal.mapperType with h | h <;> rw [h] <;> decide
  · rcases legal.dataSense with h | h <;> rw [h] <;> decide
  · rcases legal.restrictedCodes with h | h <;> rw [h] <;> decide
  · rcases legal.endianness with h | h <;> rw [h] <;> decide

section Fields

variable {a b : Config} (legal : a.Legal) (legal' : b.Legal)

include legal legal'

/-- The mandatory fields of two configurations with the same header. -/
theorem Config.SameHeader.mandatory (h : a.SameHeader b) :
    mandatoryLayout.render a = mandatoryLayout.render b := by
  have hsize := ((Config.sameSize_iff legal legal' h.restrictedCodes).mp h.blockSize).1
  rw [Layout.render_eq_iff]
  simp only [mandatoryLayout, primaryHeaderLayout, sourceDataFixedLayout, preprocessorLayout,
    entropyCoderLayout, List.forall_mem_append, List.forall_mem_cons, h.version, h.type,
    h.secHdrFlag, h.apid, h.packetSequenceCount, h.packetDataLength, h.groupingDataLength,
    h.compressionTechId, h.referenceSampleInterval, h.preprocessorStatus, h.predictorType,
    h.mapperType, hsize, h.dataSense, h.sampleResolution, h.cdsPerPacket, List.not_mem_nil,
    false_imp_iff, implies_true, and_self]

/-- Their optional segments. -/
theorem Config.SameHeader.optional (h : a.SameHeader b) :
    a.optionalLayout.render a = b.optionalLayout.render b := by
  obtain ⟨-, hpresent, hext, hlarge⟩ :=
    (Config.sameSize_iff legal legal' h.restrictedCodes).mp h.blockSize
  refine (optionalLayout_iff a b).mpr ⟨hpresent, fun hp => ?_, fun hp => ?_⟩
  · rw [extendedParametersLayout_iff, hext hp, h.restrictedCodes, h.referenceSampleInterval]
    exact ⟨rfl, rfl, rfl⟩
  · rw [extensionLayout_iff, Config.extensionInterval, Config.extensionInterval, hlarge hp,
      h.referenceSampleInterval, h.endianness hp]
    exact ⟨rfl, rfl, rfl, rfl⟩

/-- **The header determines what it has in common with another.** -/
theorem Config.SameHeader.of_render
    (hmandatory : mandatoryLayout.render a = mandatoryLayout.render b)
    (hoptional : a.optionalLayout.render a = b.optionalLayout.render b) : a.SameHeader b := by
  obtain ⟨hpresent, hext, hlarge⟩ := (optionalLayout_iff a b).mp hoptional
  rw [Layout.render_eq_iff] at hmandatory
  simp only [mandatoryLayout, primaryHeaderLayout, sourceDataFixedLayout, preprocessorLayout,
    entropyCoderLayout, List.forall_mem_append, List.forall_mem_cons, List.not_mem_nil,
    false_imp_iff, implies_true, and_true, true_and] at hmandatory
  obtain ⟨⟨hversion, htype, hflag, hapid, hcount, hdata⟩, ⟨hgrouping, htech, hinterval⟩,
    ⟨hstatus, hpredictor, hmapper, hcode, hsense, hresolution⟩, -, hcds⟩ := hmandatory
  obtain ⟨hastatus, hapredictor, hamapper, hasense, harestricted, haendian⟩ := legal.codes_lt
  obtain ⟨hbstatus, hbpredictor, hbmapper, hbsense, hbrestricted, hbendian⟩ := legal'.codes_lt
  have hrestricted : a.restrictedCodes = b.restrictedCodes := by
    by_cases hp : a.Extended
    · obtain ⟨-, hbit, -⟩ := (extendedParametersLayout_iff a b).mp (hext hp)
      exact eq_of_setWidth_of_lt harestricted hbrestricted hbit
    · -- without the subfield there are no restricted codes
      have hp' : ¬ b.Extended := fun h => hp (hpresent.1.mpr h)
      simp only [Config.Extended, not_or, not_not] at hp hp'
      rw [hp.2, hp'.2]
  have hsize : a.SameSize b := by
    refine (Config.sameSize_iff legal legal' hrestricted).mpr ⟨?_, hpresent, fun hp => ?_,
      fun hp => ?_⟩
    · exact eq_of_setWidth_of_lt (preprocessorBlockSizeCode_lt _) (preprocessorBlockSizeCode_lt _)
        hcode
    · exact ((extendedParametersLayout_iff a b).mp (hext hp)).1
    · exact ((extensionLayout_iff a b).mp (hlarge hp)).2.1
  have hendian : a.blockSize > 64 → a.endianness = b.endianness := by
    intro hp
    obtain ⟨-, -, hbit, -⟩ := (extensionLayout_iff a b).mp (hlarge hp)
    exact eq_of_setWidth_of_lt haendian hbendian hbit
  exact
    { version := hversion
      type := htype
      secHdrFlag := hflag
      apid := hapid
      packetSequenceCount := hcount
      packetDataLength := hdata
      groupingDataLength := hgrouping
      compressionTechId := htech
      referenceSampleInterval := by simpa using hinterval
      preprocessorStatus := eq_of_setWidth_of_lt hastatus hbstatus hstatus
      predictorType := eq_of_setWidth_of_lt hapredictor hbpredictor hpredictor
      mapperType := eq_of_setWidth_of_lt hamapper hbmapper hmapper
      blockSize := hsize
      dataSense := eq_of_setWidth_of_lt hasense hbsense hsense
      -- 32 and 4096 are stored as zero, which no other legal value is
      sampleResolution := eq_of_setWidth_eq ⟨legal.sampleResolution.1,
        Nat.lt_succ_of_le legal.sampleResolution.2⟩ ⟨legal'.sampleResolution.1,
        Nat.lt_succ_of_le legal'.sampleResolution.2⟩ hresolution
      cdsPerPacket := eq_of_setWidth_eq ⟨legal.cdsPerPacket.1,
        Nat.lt_succ_of_le legal.cdsPerPacket.2⟩ ⟨legal'.cdsPerPacket.1,
        Nat.lt_succ_of_le legal'.cdsPerPacket.2⟩ hcds
      restrictedCodes := hrestricted
      endianness := hendian }

end Fields

/-- **What a header tells apart.** Two legal configurations leave the same header file, over zeroed
memory, exactly when they agree on every argument up to this: process identifier, sequence count and
grouping length count in the bits of their fields only, and so does the secondary header flag, whose
higher bits go into the fields before it, so that version and type count together with what the flag
adds to them. The sequence flags do not count, the endianness counts above block size 64, and block
sizes without a code of their own are the same when they bring the same segments. -/
theorem sameFile_iff {a b : Config} (legal : a.Legal) (legal' : b.Legal) {fs : FileSystem}
    {path : String} (hw : fs.writable path = true) :
    (zeroedHeader a).writeHeaderToFile fs path = (zeroedHeader b).writeHeaderToFile fs path
      ↔ a.SameHeader b := by
  rw [writeHeaderToFile_iff legal legal' hw]
  constructor
  · rintro ⟨hmandatory, hoptional⟩
    exact Config.SameHeader.of_render legal legal' hmandatory hoptional
  · intro h
    exact ⟨h.mandatory legal legal', h.optional legal legal'⟩

/-- The block sizes 24 and 48 are not told apart, nor is the endianness that comes with them. -/
theorem sameFile_uncoded :
    (zeroedHeader (commandLineConfig 1 1 1 0 8 1 24)).writeHeaderToFile FileSystem.empty "out.iqz"
      = (zeroedHeader (commandLineConfig 1 0 1 0 8 1 48)).writeHeaderToFile FileSystem.empty
        "out.iqz" :=
  (sameFile_iff (by decide) (by decide) rfl).mpr
    { version := rfl
      type := rfl
      secHdrFlag := rfl
      apid := rfl
      packetSequenceCount := rfl
      packetDataLength := rfl
      groupingDataLength := rfl
      compressionTechId := rfl
      referenceSampleInterval := rfl
      preprocessorStatus := rfl
      predictorType := rfl
      mapperType := rfl
      blockSize := Or.inr (by decide)
      dataSense := rfl
      sampleResolution := rfl
      cdsPerPacket := rfl
      restrictedCodes := rfl
      endianness := by decide }

end IQzip
