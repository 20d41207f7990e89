import IQzip.PrimaryHeader
import IQzip.IdentificationPacket
import IQzip.Machine

/-! # The IQzip compression header

`iqzip_compression_header` wraps the primary header, the Compression Identification Packet and the
two-byte IQzip extension. `headerBytes` is what `write_header_to_file` emits, `parseBuffer` is what
`parse_header_from_file` does with the 18 bytes it read.

The secondary header and the Instrument Configuration subfield are never written, so no function
here handles them. -/

namespace IQzip

/-- `IQZIP_COMPRESSION_HDR_SIZE`. -/
def iqzipCompressionHdrSize : Nat := 2

/-- The arguments of the `iqzip_compression_header` constructor, which are also the scalar members
of `iqzip_impl`. -/
structure Config where
  version : U8
  type : U8
  secHdrFlag : U8
  apid : U16
  sequenceFlags : U8
  packetSequenceCount : U16
  packetDataLength : U16
  groupingDataLength : U16
  compressionTechId : U8
  referenceSampleInterval : U8
  preprocessorStatus : U8
  predictorType : U8
  mapperType : U8
  blockSize : U16
  dataSense : U8
  sampleResolution : U8
  cdsPerPacket : U16
  restrictedCodes : U8
  endianness : U8
  deriving DecidableEq

/-- The arguments that no `encode_*` function calls invalid. -/
structure Config.Legal (cfg : Config) : Prop where
  preprocessorStatus : cfg.preprocessorStatus = 0 ∨ cfg.preprocessorStatus = 1
  predictorType : cfg.predictorType = 0 ∨ cfg.predictorType = 1 ∨ cfg.predictorType = 7
  mapperType : cfg.mapperType = 0 ∨ cfg.mapperType = 3
  blockSize : cfg.blockSize ≠ 0
  dataSense : cfg.dataSense = 0 ∨ cfg.dataSense = 1
  sampleResolution : 1 ≤ cfg.sampleResolution ∧ cfg.sampleResolution ≤ 32
  cdsPerPacket : 1 ≤ cfg.cdsPerPacket ∧ cfg.cdsPerPacket ≤ 4096
  restrictedCodes : cfg.restrictedCodes = 0 ∨ cfg.restrictedCodes = 1
  endianness : cfg.endianness = 0 ∨ cfg.endianness = 1

instance (cfg : Config) : Decidable cfg.Legal :=
  decidable_of_iff
    ((cfg.preprocessorStatus = 0 ∨ cfg.preprocessorStatus = 1)
      ∧ (cfg.predictorType = 0 ∨ cfg.predictorType = 1 ∨ cfg.predictorType = 7)
      ∧ (cfg.mapperType = 0 ∨ cfg.mapperType = 3) ∧ cfg.blockSize ≠ 0
      ∧ (cfg.dataSense = 0 ∨ cfg.dataSense = 1)
      ∧ (1 ≤ cfg.sampleResolution ∧ cfg.sampleResolution ≤ 32)
      ∧ (1 ≤ cfg.cdsPerPacket ∧ cfg.cdsPerPacket ≤ 4096)
      ∧ (cfg.restrictedCodes = 0 ∨ cfg.restrictedCodes = 1)
      ∧ (cfg.endianness = 0 ∨ cfg.endianness = 1))
    ⟨fun ⟨h1, h2, h3, h4, h5, h6, h7, h8, h9⟩ => ⟨h1, h2, h3, h4, h5, h6, h7, h8, h9⟩,
      fun ⟨h1, h2, h3, h4, h5, h6, h7, h8, h9⟩ => ⟨h1, h2, h3, h4, h5, h6, h7, h8, h9⟩⟩

/-- `iqzip_compression_header_t`, a bit-field of 4 + 11 + 1 bits. -/
structure IqzipHeaderFields where
  blockSize : BitVec 4
  rsi : BitVec 11
  endianness : BitVec 1
  deriving DecidableEq

namespace IqzipHeaderFields

/-- The 16-bit unit the fields share: block size in bits 0-3, interval in bits 4-14, endianness in
bit 15. -/
def toWord (f : IqzipHeaderFields) : U16 :=
  f.blockSize.setWidth 16 ||| f.rsi.setWidth 16 <<< 4 ||| f.endianness.setWidth 16 <<< 15

/-- The two bytes of the bit-field, low byte first. -/
def toBytes (f : IqzipHeaderFields) : List U8 :=
  [f.toWord.setWidth 8, (f.toWord >>> 8).setWidth 8]

/-- The bit-field that two bytes spell. -/
def ofBytes (lo hi : U8) : IqzipHeaderFields :=
  let word : U16 := hi ++ lo
  { blockSize := word.extractLsb' 0 4
    rsi := word.extractLsb' 4 11
    endianness := word.extractLsb' 15 1 }

/-- The header of the tool has two bytes. -/
@[simp] theorem length_toBytes (f : IqzipHeaderFields) : f.toBytes.length = 2 := rfl

/-- A word is put together again from its two bytes. -/
theorem append_bytes (w : U16) :
    (((w >>> 8).setWidth 8 : U8) ++ (w.setWidth 8 : U8) : BitVec 16) = w := by
  apply BitVec.eq_of_getLsbD_eq
  intro i hi
  rw [BitVec.getLsbD_append]
  -- bit `i` comes from the low byte or from the high one
  by_cases h : i < 8
  · simp [h]
  · have hd : i - 8 < 8 := by omega
    have hs : 8 + (i - 8) = i := by omega
    simp [h, hd, hs]

/-- The block size is in the low four bits. -/
theorem extract_blockSize (f : IqzipHeaderFields) : f.toWord.extractLsb' 0 4 = f.blockSize := by
  apply BitVec.eq_of_getLsbD_eq
  intro i hi
  have h15 : i < 15 := by omega
  have h16 : i < 16 := by omega
  simp [toWord, hi, h15, h16]

/-- The interval is in the eleven bits above. -/
theorem extract_rsi (f : IqzipHeaderFields) : f.toWord.extractLsb' 4 11 = f.rsi := by
  apply BitVec.eq_of_getLsbD_eq
  intro i hi
  have h15 : 4 + i < 15 := by omega
  have h16 : 4 + i < 16 := by omega
  simp [toWord, hi, h15, h16]

/-- The byte order is in the highest bit. -/
theorem extract_endianness (f : IqzipHeaderFields) :
    f.toWord.extractLsb' 15 1 = f.endianness := by
  apply BitVec.eq_of_getLsbD_eq
  intro i hi
  have h0 : i = 0 := by omega
  subst h0
  simp [toWord]

/-- **The two bytes of a bit-field spell it.** -/
theorem ofBytes_toBytes (f : IqzipHeaderFields) :
    ofBytes (f.toWord.setWidth 8) ((f.toWord >>> 8).setWidth 8) = f := by
  rw [ofBytes, append_bytes, extract_blockSize, extract_rsi, extract_endianness]

end IqzipHeaderFields

/-- The bytes the objects of one header are built on: the constructors write into them but do not
clear all of them. -/
structure HeaderStorage where
  primaryHeader : PacketPrimaryHeader
  sourceDataFixed : SourceDataFixed
  sourceDataVariable : SourceDataVariable
  iqzipHeader : IqzipHeaderFields

/-- Storage that is all zero. -/
def HeaderStorage.zero : HeaderStorage :=
  { primaryHeader := bytes6 0 0 0 0 0 0
    sourceDataFixed := bytes4 0 0 0 0
    sourceDataVariable :=
      { preprocessor := bytes2 0 0
        entropyCoder := bytes2 0 0
        extendedParameters := bytes2 0 0
        instrumentConfigHeader := 0 }
    iqzipHeader := { blockSize := 0, rsi := 0, endianness := 0 } }

/-- `iqzip_compression_header`. The members nothing reads (`d_enable_preprocessing`, `d_data_sense`,
`d_sample_resolution`) are left out. -/
structure IqzipCompressionHeader where
  dIqzipHeader : IqzipHeaderFields
  dPrimaryHeader : CcsdsPacketPrimaryHeader
  dCip : CompressionIdentificationPacket
  dBlockSize : U16
  dRsi : U16
  dEndianness : U8
  dVersion : U8
  dType : U8
  dSecHdrFlag : U8
  dSequenceFlags : U8
  dRestrictedCodes : U8
  dApid : U16
  dSequenceCount : U16
  dDataLength : U16

namespace IqzipCompressionHeader

/-! ## The extension header -/

/-- `encode_iqzip_header_block_size`; the parameter is a `size_t`, so the test for 65536 can be
reached only past the test that refuses it. -/
def encodeIqzipHeaderBlockSize (h : IqzipCompressionHeader) (size : Nat) :
    IqzipCompressionHeader :=
  let store (b : BlockSize) : IqzipCompressionHeader :=
    { h with dIqzipHeader := { h.dIqzipHeader with blockSize := b.toU8.setWidth 4 } }
  if size > 65535 then unthrown ⟨"Invalid IQzip header block size"⟩ h
  else if size = 128 then store .samples128
  else if size = 256 then store .samples256
  else if size = 512 then store .samples512
  else if size = 1024 then store .samples1024
  else if size = 2048 then store .samples2048
  else if size = 4096 then store .samples4096
  else if size = 8192 then store .samples8192
  else if size = 16384 then store .samples16384
  else if size = 32768 then store .samples32768
  else if size = 65536 then store .samples65535
  -- sizes without a code get that of 128, silently
  else { h with dIqzipHeader := { h.dIqzipHeader with blockSize := 0 } }

/-- `encode_iqzip_header_endianness`. -/
def encodeIqzipHeaderEndianness (h : IqzipCompressionHeader) (endianness : U8) :
    IqzipCompressionHeader :=
  let store (e : Endianness) : IqzipCompressionHeader :=
    { h with dIqzipHeader := { h.dIqzipHeader with endianness := e.toU8.setWidth 1 } }
  if endianness = 1 then store .little
  else if endianness = 0 then store .big
  else unthrown ⟨"Invalid IQzip header endianess"⟩ h

/-- `encode_iqzip_header_reference_sample_interval`. -/
def encodeIqzipHeaderReferenceSampleInterval (h : IqzipCompressionHeader) (interval : U16) :
    IqzipCompressionHeader :=
  { h with dIqzipHeader :=
      { h.dIqzipHeader with rsi := BitVec.ofInt 11 (((interval.toNat : Int) - 1).tmod 2048) } }

/-- `encode()`. -/
def encode (h : IqzipCompressionHeader) : IqzipCompressionHeader :=
  let h := h.encodeIqzipHeaderBlockSize h.dBlockSize.toNat
  let h := h.encodeIqzipHeaderEndianness h.dEndianness
  h.encodeIqzipHeaderReferenceSampleInterval h.dRsi

/-- `decode_iqzip_header_block_size`. -/
def decodeIqzipHeaderBlockSize (h : IqzipCompressionHeader) : U16 :=
  let code : U8 := h.dIqzipHeader.blockSize.setWidth 8
  if code = BlockSize.samples128.toU8 then 128
  else if code = BlockSize.samples256.toU8 then 256
  else if code = BlockSize.samples512.toU8 then 512
  else if code = BlockSize.samples1024.toU8 then 1024
  else if code = BlockSize.samples2048.toU8 then 2048
  else if code = BlockSize.samples4096.toU8 then 4096
  else if code = BlockSize.samples8192.toU8 then 8192
  else if code = BlockSize.samples16384.toU8 then 16384
  else if code = BlockSize.samples32768.toU8 then 32768
  else if code = BlockSize.samples65535.toU8 then 65535
  else unthrown ⟨"Invalid IQzip header block size code"⟩ 0

/-- `decode_iqzip_header_endianess`. -/
def decodeIqzipHeaderEndianess (h : IqzipCompressionHeader) : U16 :=
  let code : U8 := h.dIqzipHeader.endianness.setWidth 8
  if code = Endianness.big.toU8 then 0
  else if code = Endianness.little.toU8 then 1
  else unthrown ⟨"Invalid IQzip header endianness code"⟩ 0

/-- `decode_iqzip_header_reference_sample_interval`: the stored value, without the offset of one
that the setter subtracts. -/
def decodeIqzipHeaderReferenceSampleInterval (h : IqzipCompressionHeader) : U16 :=
  h.dIqzipHeader.rsi.setWidth 16

/-- `set_iqzip_compression_header`. -/
def setIqzipCompressionHeader (h : IqzipCompressionHeader) (hdr : IqzipHeaderFields) :
    IqzipCompressionHeader :=
  { h with dIqzipHeader := hdr }

/-! ## The primary header through the wrapper

The getters ask the wrapped header for its bytes; the setters only assign the members that the
wrapper's constructor keeps. -/

/-- `decode_version`. -/
def decodeVersion (h : IqzipCompressionHeader) : U8 := h.dPrimaryHeader.decodeVersion

/-- `decode_type`. -/
def decodeType (h : IqzipCompressionHeader) : U8 := h.dPrimaryHeader.decodeType

/-- `decode_secondary_header_flag`. -/
def decodeSecondaryHeaderFlag (h : IqzipCompressionHeader) : U8 :=
  h.dPrimaryHeader.decodeSecondaryHeaderFlag

/-- `decode_application_process_identifier`. -/
def decodeApplicationProcessIdentifier (h : IqzipCompressionHeader) : U16 :=
  h.dPrimaryHeader.decodeApplicationProcessIdentifier

/-- `decode_sequence_flags`. -/
def decodeSequenceFlags (h : IqzipCompressionHeader) : U8 := h.dPrimaryHeader.decodeSequenceFlags

/-- `decode_packet_sequence_count`. -/
def decodePacketSequenceCount (h : IqzipCompressionHeader) : U16 :=
  h.dPrimaryHeader.decodePacketSequenceCount

/-- `decode_packet_data_length`. -/
def decodePacketDataLength (h : IqzipCompressionHeader) : U16 :=
  h.dPrimaryHeader.decodePacketDataLength

/-- `encode_version`. -/
def encodeVersion (h : IqzipCompressionHeader) (version : U8) : IqzipCompressionHeader :=
  { h with dVersion := version }

/-- `encode_type`. -/
def encodeType (h : IqzipCompressionHeader) (type : U8) : IqzipCompressionHeader :=
  { h with dType := type }

/-- `encode_secondary_header_flag`. -/
def encodeSecondaryHeaderFlag (h : IqzipCompressionHeader) (flag : U8) : IqzipCompressionHeader :=
  { h with dSecHdrFlag := flag }

/-- `encode_application_process_identifier`. -/
def encodeApplicationProcessIdentifier (h : IqzipCompressionHeader) (apid : U16) :
    IqzipCompressionHeader :=
  { h with dApid := apid }

/-- `encode_sequence_flags`. -/
def encodeSequenceFlags (h : IqzipCompressionHeader) (flags : U8) : IqzipCompressionHeader :=
  { h with dSequenceFlags := flags }

/-- `encode_packet_sequence_count`. -/
def encodePacketSequenceCount (h : IqzipCompressionHeader) (count : U16) :
    IqzipCompressionHeader :=
  { h with dSequenceCount := count }

/-- `encode_packet_data_length`. -/
def encodePacketDataLength (h : IqzipCompressionHeader) (length : U16) : IqzipCompressionHeader :=
  { h with dDataLength := length }

/-! ## Construction -/

/-- The constructor with arguments, over the bytes `storage` that its objects are built on. -/
def construct (storage : HeaderStorage) (cfg : Config) : IqzipCompressionHeader :=
  encode
    { dIqzipHeader := storage.iqzipHeader
      dPrimaryHeader :=
        CcsdsPacketPrimaryHeader.construct storage.primaryHeader cfg.version cfg.type
          cfg.secHdrFlag cfg.apid cfg.sequenceFlags cfg.packetSequenceCount cfg.packetDataLength
      dCip :=
        CompressionIdentificationPacket.construct storage.sourceDataFixed
          storage.sourceDataVariable cfg.groupingDataLength cfg.compressionTechId
          cfg.referenceSampleInterval cfg.preprocessorStatus cfg.predictorType cfg.mapperType
          cfg.blockSize cfg.dataSense cfg.sampleResolution cfg.cdsPerPacket cfg.restrictedCodes
      dBlockSize := cfg.blockSize
      dRsi := cfg.referenceSampleInterval.setWidth 16
      dEndianness := cfg.endianness
      dVersion := cfg.version
      dType := cfg.type
      dSecHdrFlag := cfg.secHdrFlag
      dSequenceFlags := cfg.sequenceFlags
      dRestrictedCodes := cfg.restrictedCodes
      dApid := cfg.apid
      dSequenceCount := cfg.packetSequenceCount
      dDataLength := cfg.packetDataLength }

/-- The default constructor. -/
def default (storage : HeaderStorage) : IqzipCompressionHeader :=
  { dIqzipHeader := storage.iqzipHeader
    dPrimaryHeader := CcsdsPacketPrimaryHeader.default storage.primaryHeader
    dCip :=
      CompressionIdentificationPacket.default storage.sourceDataFixed storage.sourceDataVariable
    dBlockSize := 0
    dRsi := 0
    dEndianness := 0
    dVersion := 0
    dType := 0
    dSecHdrFlag := 0
    dSequenceFlags := 0
    dRestrictedCodes := 0
    dApid := 0
    dSequenceCount := 0
    dDataLength := 0 }

/-! ## Writing -/

/-- The bytes of the segments that `write_header_to_file` writes whatever the configuration. -/
def mandatoryBytes (h : IqzipCompressionHeader) : List U8 :=
  h.dPrimaryHeader.dPrimaryHeader.toList
    ++ h.dCip.dSourceDataFixed.toList
    ++ h.dCip.dSourceDataVariable.preprocessor.toList
    ++ h.dCip.dSourceDataVariable.entropyCoder.toList

/-- The bytes `write_header_to_file` emits, segment by segment. -/
def headerBytes (h : IqzipCompressionHeader) : List U8 :=
  h.mandatoryBytes
    -- an interval of one byte never passes the middle test
    ++ (if h.dBlockSize > 16 ∨ h.dRsi > 255 ∨ h.dRestrictedCodes ≠ 0 then
          h.dCip.dSourceDataVariable.extendedParameters.toList
        else [])
    ++ (if h.dBlockSize > 64 then h.dIqzipHeader.toBytes else [])

/-- `write_header_to_file`: the file is created or emptied, then the segments are written. -/
def writeHeaderToFile (h : IqzipCompressionHeader) (fs : FileSystem) (path : String) :
    Except Abort FileSystem :=
  if fs.writable path then .ok (fs.put path h.headerBytes) else .error .nullFile

/-! ## Parsing -/

/-- The array of `n` bytes at offset `off` of the buffer. -/
def bytesOf (buffer : List U8) (off n : Nat) : Vector U8 n :=
  Vector.ofFn fun i => buffer.getD (off + i) 0

/-- `decode_preprocessor_block_size`. -/
def decodePreprocessorBlockSize (h : IqzipCompressionHeader) : U16 :=
  h.dCip.decodePreprocessorBlockSize

/-- `decode_extended_parameters_block_size`. -/
def decodeExtendedParametersBlockSize (h : IqzipCompressionHeader) : U16 :=
  h.dCip.decodeExtendedParametersBlockSize

/-- The buffer spread over the three headers. The copy of the source configuration field is longer
than what is left of the buffer: it reads out of bounds, and fills `instrument_config` from there.
That read is left aside. Nothing reads the member, so it keeps its value here. -/
def setFromBuffer (h : IqzipCompressionHeader) (buffer : List U8) : IqzipCompressionHeader :=
  let hdrPrimary := bytesOf buffer 0 6
  let hdrSrcCnfFixed := bytesOf buffer ccsdsPrimaryHeaderSize 4
  let srcCnf := ccsdsPrimaryHeaderSize + sourceDataFixedSize
  let hdrSrcCnf : SourceDataVariable :=
    { preprocessor := bytesOf buffer srcCnf 2
      entropyCoder := bytesOf buffer (srcCnf + 2) 2
      extendedParameters := bytesOf buffer (srcCnf + 4) 2
      instrumentConfigHeader := h.dCip.dSourceDataVariable.instrumentConfigHeader }
  let iqzipHdr := ccsdsPrimaryHeaderSize + sourceDataFixedSize + preprocessorSubfieldSize
    + entropyCoderSubfieldSize + extendedParametersSubfieldSize
  let h := { h with dPrimaryHeader := h.dPrimaryHeader.setPrimaryHeader hdrPrimary }
  let h := { h with dCip := h.dCip.setSourceDataFixed hdrSrcCnfFixed }
  let h := { h with dCip := h.dCip.setSourceDataVariable hdrSrcCnf }
  h.setIqzipCompressionHeader
    (IqzipHeaderFields.ofBytes (buffer.getD iqzipHdr 0) (buffer.getD (iqzipHdr + 1) 0))

/-- The part of `parse_header_from_file` after the read: fill the headers, then work out the length
of the header from the block-size codes. -/
def parseBuffer (h : IqzipCompressionHeader) (buffer : List U8) : Nat × IqzipCompressionHeader :=
  -- the length without the optional segments
  let hdrSize := ccsdsPrimaryHeaderSize + sourceDataFixedSize + preprocessorSubfieldSize
    + entropyCoderSubfieldSize
  let h := h.setFromBuffer buffer
  let h := { h with dBlockSize := h.decodePreprocessorBlockSize }
  if h.dBlockSize = 0 then
    -- this code is read whether or not its segment was written
    let h := { h with dBlockSize := h.decodeExtendedParametersBlockSize }
    let hdrSize := hdrSize + extendedParametersSubfieldSize
    if h.dBlockSize = 0 then (hdrSize + iqzipCompressionHdrSize, h) else (hdrSize, h)
  else (hdrSize, h)

/-- `max_header_size`: what the parser reads, whatever segments the file has. -/
def maxHeaderSize : Nat := maxCipHeaderSizeBytes + iqzipCompressionHdrSize

/-- `parse_header_from_file`: it returns the header length. -/
def parseHeaderFromFile (h : IqzipCompressionHeader) (fs : FileSystem) (path : String) :
    Except Abort (Nat × IqzipCompressionHeader) :=
  match fs.content path with
  | none => .error .nullFile
  | some bytes =>
    let buffer := bytes.take maxHeaderSize
    -- the one `runtime_error` of the header classes that is thrown
    if buffer.length ≠ maxHeaderSize then .error (.raised ⟨"File reading error"⟩)
    else .ok (h.parseBuffer buffer)

/-- `decode_block_size`. -/
def decodeBlockSize (h : IqzipCompressionHeader) : U16 :=
  let blockSize := h.decodePreprocessorBlockSize
  if blockSize = 0 then
    let blockSize := h.decodeExtendedParametersBlockSize
    if blockSize = 0 then h.decodeIqzipHeaderBlockSize else blockSize
  else blockSize

/-! ## What construction leaves -/

/-- The code `encode_iqzip_header_block_size` stores for a 16-bit size: zero for every size without
a code of its own. -/
def iqzipBlockSizeCode (size : Nat) : BitVec 4 :=
  if size = 256 then 1
  else if size = 512 then 2
  else if size = 1024 then 3
  else if size = 2048 then 4
  else if size = 4096 then 5
  else if size = 8192 then 6
  else if size = 16384 then 7
  else if size = 32768 then 8
  else 0

/-- The extension setter of the block size, for a size of 16 bits. -/
theorem encodeIqzipHeaderBlockSize_eq (h : IqzipCompressionHeader) {size : Nat}
    (hsize : size ≤ 65535) :
    h.encodeIqzipHeaderBlockSize size
      = { h with dIqzipHeader :=
          { h.dIqzipHeader with blockSize := iqzipBlockSizeCode size } } := by
  have hle : ¬ size > 65535 := by omega
  have htop : ¬ size = 65536 := by omega
  simp only [encodeIqzipHeaderBlockSize, if_neg hle, if_neg htop]
  by_cases h128 : size = 128
  · subst h128; rfl
  -- past 128 the two chains ask the same questions in the same order
  let store (code : BitVec 4) : IqzipCompressionHeader :=
    { h with dIqzipHeader := { h.dIqzipHeader with blockSize := code } }
  rw [if_neg h128]
  change _ = store (iqzipBlockSizeCode size)
  simp only [iqzipBlockSizeCode, apply_ite store]
  rfl

/-- The extension setter of the endianness, for an endianness it accepts. -/
theorem encodeIqzipHeaderEndianness_eq (h : IqzipCompressionHeader) {endianness : U8}
    (he : endianness = 0 ∨ endianness = 1) :
    h.encodeIqzipHeaderEndianness endianness
      = { h with dIqzipHeader :=
          { h.dIqzipHeader with endianness := endianness.setWidth 1 } } := by
  rcases he with rfl | rfl <;> rfl

section Construct

variable (storage : HeaderStorage) (cfg : Config)

/-- The extension setters write `d_iqzip_header` only. -/
theorem encode_eq (h : IqzipCompressionHeader) :
    h.encode = { h with dIqzipHeader := h.encode.dIqzipHeader } := by
  simp only [encode, encodeIqzipHeaderReferenceSampleInterval, encodeIqzipHeaderEndianness,
    unthrown_eq]
  rw [encodeIqzipHeaderBlockSize_eq h (by have := h.dBlockSize.isLt; omega)]
  split_ifs <;> rfl

@[simp] theorem construct_dBlockSize : (construct storage cfg).dBlockSize = cfg.blockSize := by
  rw [construct, encode_eq]

@[simp] theorem construct_dRsi :
    (construct storage cfg).dRsi = cfg.referenceSampleInterval.setWidth 16 := by
  rw [construct, encode_eq]

@[simp] theorem construct_dRestrictedCodes :
    (construct storage cfg).dRestrictedCodes = cfg.restrictedCodes := by
  rw [construct, encode_eq]

/-- **The extension after construction** holds nothing of the storage: all three fields are
assigned. -/
theorem construct_dIqzipHeader (he : cfg.endianness = 0 ∨ cfg.endianness = 1) :
    (construct storage cfg).dIqzipHeader
      = { blockSize := iqzipBlockSizeCode cfg.blockSize.toNat
          rsi := BitVec.ofInt 11
            (((cfg.referenceSampleInterval.setWidth 16 : U16).toNat - 1 : Int).tmod 2048)
          endianness := cfg.endianness.setWidth 1 } := by
  have hsize : cfg.blockSize.toNat ≤ 65535 := by have := cfg.blockSize.isLt; omega
  simp only [construct, encode, encodeIqzipHeaderBlockSize_eq _ hsize,
    encodeIqzipHeaderEndianness_eq _ he, encodeIqzipHeaderReferenceSampleInterval]

/-- The primary header bytes of a constructed header. -/
theorem construct_primaryHeader :
    (construct storage cfg).dPrimaryHeader.dPrimaryHeader
      = bytes6 (storage.primaryHeader.get 0 ||| CcsdsPacketPrimaryHeader.firstByteBits cfg.version
            cfg.type cfg.secHdrFlag cfg.apid)
          (cfg.apid.setWidth 8)
          (storage.primaryHeader.get 2
            ||| CcsdsPacketPrimaryHeader.thirdByteBits cfg.packetSequenceCount)
          ((cfg.packetSequenceCount % 16384).setWidth 8)
          (storage.primaryHeader.get 4 ||| (cfg.packetDataLength >>> 8).setWidth 8)
          (cfg.packetDataLength.setWidth 8) := by
  rw [construct, encode_eq]
  exact CcsdsPacketPrimaryHeader.construct_bytes ..

/-- The fixed part of the packet in a constructed header. -/
theorem construct_sourceDataFixed :
    (construct storage cfg).dCip.dSourceDataFixed
      = bytes4
          (storage.sourceDataFixed.get 0 ||| ((cfg.groupingDataLength % 4096) >>> 8).setWidth 8)
          ((cfg.groupingDataLength % 4096).setWidth 8)
          cfg.compressionTechId
          (CompressionIdentificationPacket.intervalByte cfg.referenceSampleInterval) := by
  rw [construct, encode_eq]
  exact CompressionIdentificationPacket.construct_fixed ..

open CompressionIdentificationPacket in
/-- The subfields of the packet in a constructed header. -/
theorem construct_sourceDataVariable (h : 1 ≤ cfg.cdsPerPacket ∧ cfg.cdsPerPacket ≤ 4096) :
    (construct storage cfg).dCip.dSourceDataVariable
      = { preprocessor :=
            bytes2
              (storage.sourceDataVariable.preprocessor.get 0 ||| (statusBits cfg.preprocessorStatus
                ||| (predictorTypeBits cfg.predictorType ||| mapperTypeBits cfg.mapperType)))
              (storage.sourceDataVariable.preprocessor.get 1
                ||| (preprocessorBlockSizeBits cfg.blockSize
                ||| (dataSenseBits cfg.dataSense ||| sampleResolutionBits cfg.sampleResolution)))
          entropyCoder :=
            bytes2
              (storage.sourceDataVariable.entropyCoder.get 0
                ||| (0x40 ||| (resolutionRangeBits cfg.sampleResolution
                ||| (cfg.cdsPerPacket >>> 8 &&& entropyCoderCdsesNumMask >>> 8).setWidth 8)))
              (cfg.cdsPerPacket.setWidth 8)
          extendedParameters :=
            bytes2 (0xc0 ||| extendedBlockSizeBits cfg.blockSize)
              (restrictedCodeBits cfg.restrictedCodes
                ||| (intervalByte cfg.referenceSampleInterval &&& 0xf))
          instrumentConfigHeader := 2 } := by
  rw [construct, encode_eq]
  exact CompressionIdentificationPacket.construct_variable _ _ _ _ _ _ _ _ _ _ _ _ _ h

end Construct

/-! ## Segments on the wire -/

/-- The bytes `write_header_to_file` emits after the mandatory segments. -/
def optionalBytes (h : IqzipCompressionHeader) : List U8 :=
  (if h.dBlockSize > 16 ∨ h.dRsi > 255 ∨ h.dRestrictedCodes ≠ 0 then
      h.dCip.dSourceDataVariable.extendedParameters.toList
    else [])
    ++ (if h.dBlockSize > 64 then h.dIqzipHeader.toBytes else [])

/-- The fields of every header, and those of some. -/
theorem headerBytes_eq (h : IqzipCompressionHeader) :
    h.headerBytes = h.mandatoryBytes ++ h.optionalBytes := by
  simp [headerBytes, optionalBytes]

/-- The fields of every header take 14 bytes. -/
@[simp] theorem length_mandatoryBytes (h : IqzipCompressionHeader) :
    h.mandatoryBytes.length = 14 := by
  simp [mandatoryBytes]

/-- **The length of the header on the wire**: 14 bytes and two for each optional segment. -/
theorem length_headerBytes (h : IqzipCompressionHeader) :
    h.headerBytes.length
      = 14 + (if h.dBlockSize > 16 ∨ h.dRsi > 255 ∨ h.dRestrictedCodes ≠ 0 then 2 else 0)
        + (if h.dBlockSize > 64 then 2 else 0) := by
  rw [headerBytes_eq, List.length_append, length_mandatoryBytes, optionalBytes]
  split_ifs <;> simp

/-- The length of a constructed header, from the two arguments that decide the segments: an
interval of one byte never exceeds 255. -/
theorem length_construct_headerBytes (storage : HeaderStorage) (cfg : Config) :
    (construct storage cfg).headerBytes.length
      = 14 + (if cfg.blockSize > 16 ∨ cfg.restrictedCodes ≠ 0 then 2 else 0)
        + (if cfg.blockSize > 64 then 2 else 0) := by
  have hrsi : ¬ (cfg.referenceSampleInterval.setWidth 16 : U16) > 255 := by
    have := cfg.referenceSampleInterval.isLt
    bv_omega
  rw [length_headerBytes]
  simp only [construct_dBlockSize, construct_dRsi, construct_dRestrictedCodes, hrsi, false_or]

/-- An array that lies in the buffer at offset `pre.length` is read back from there. -/
theorem bytesOf_append {n : Nat} (pre post : List U8) (v : Vector U8 n) :
    bytesOf (pre ++ (v.toList ++ post)) pre.length n = v := by
  apply Vector.ext
  intro i hi
  have hget : (pre ++ (v.toList ++ post))[pre.length + i]? = some v[i] := by
    rw [List.getElem?_append_right (by omega), Nat.add_sub_cancel_left,
      List.getElem?_append_left (by simpa using hi)]
    simp
  simp [bytesOf, hget]

/-! ## Parsing what was written -/

section Parse

variable (g h : IqzipCompressionHeader) (buffer rest : List U8)

/-- Mandatory bytes fill the Preprocessor subfield of the parser. -/
theorem setFromBuffer_preprocessor :
    (g.setFromBuffer (h.mandatoryBytes ++ rest)).dCip.dSourceDataVariable.preprocessor
      = h.dCip.dSourceDataVariable.preprocessor := by
  -- ten bytes lie before the subfield
  have hsplit : h.mandatoryBytes ++ rest
      = (h.dPrimaryHeader.dPrimaryHeader.toList ++ h.dCip.dSourceDataFixed.toList)
        ++ (h.dCip.dSourceDataVariable.preprocessor.toList
          ++ (h.dCip.dSourceDataVariable.entropyCoder.toList ++ rest)) := by
    simp [mandatoryBytes]
  have hread := bytesOf_append
    (h.dPrimaryHeader.dPrimaryHeader.toList ++ h.dCip.dSourceDataFixed.toList)
    (h.dCip.dSourceDataVariable.entropyCoder.toList ++ rest)
    h.dCip.dSourceDataVariable.preprocessor
  have hlen : (h.dPrimaryHeader.dPrimaryHeader.toList
      ++ h.dCip.dSourceDataFixed.toList).length = 10 := by simp
  rw [← hsplit, hlen] at hread
  exact hread

/-- An Extended Parameters segment that is present fills the subfield of the parser. -/
theorem setFromBuffer_extendedParameters {v : Vector U8 2} (hrest : rest = v.toList ++ buffer) :
    (g.setFromBuffer (h.mandatoryBytes ++ rest)).dCip.dSourceDataVariable.extendedParameters
      = v := by
  have hread := bytesOf_append h.mandatoryBytes buffer v
  rw [← hrest, length_mandatoryBytes] at hread
  exact hread

/-- An extension segment that is present fills the bit-field of the parser. -/
theorem setFromBuffer_iqzipHeader {v : Vector U8 2} {f : IqzipHeaderFields}
    (hrest : rest = v.toList ++ (f.toBytes ++ buffer)) :
    (g.setFromBuffer (h.mandatoryBytes ++ rest)).dIqzipHeader = f := by
  -- sixteen bytes lie before the two of the bit-field
  have hlen : (h.mandatoryBytes ++ v.toList).length = 16 := by simp
  have hlo : (h.mandatoryBytes ++ rest).getD 16 0 = f.toWord.setWidth 8 := by
    rw [hrest, ← List.append_assoc, List.getD_eq_getElem?_getD,
      List.getElem?_append_right (by omega), hlen]
    rfl
  have hhi : (h.mandatoryBytes ++ rest).getD 17 0 = (f.toWord >>> 8).setWidth 8 := by
    rw [hrest, ← List.append_assoc, List.getD_eq_getElem?_getD,
      List.getElem?_append_right (by omega), hlen]
    rfl
  rw [← IqzipHeaderFields.ofBytes_toBytes f, ← hlo, ← hhi]
  rfl

/-- The length the parser returns, from the two block-size codes it read. -/
theorem parseBuffer_fst :
    (g.parseBuffer buffer).1
      = if (g.setFromBuffer buffer).decodePreprocessorBlockSize = 0 then
          if (g.setFromBuffer buffer).decodeExtendedParametersBlockSize = 0 then 18 else 16
        else 14 := by
  unfold parseBuffer
  dsimp only
  split_ifs <;> first | rfl | simp_all [decodePreprocessorBlockSize,
    decodeExtendedParametersBlockSize]

/-- The object the parser leaves: the buffer spread over the headers, and some cached block
size. -/
theorem parseBuffer_snd :
    ∃ b, (g.parseBuffer buffer).2 = { g.setFromBuffer buffer with dBlockSize := b } := by
  unfold parseBuffer
  dsimp only
  split_ifs <;> exact ⟨_, rfl⟩

/-- The parser on a file that has the 18 bytes it reads. -/
theorem parseHeaderFromFile_eq_ok {fs : FileSystem} {path : String} {bytes : List U8}
    (hfile : fs.content path = some bytes) (hlen : maxHeaderSize ≤ bytes.length) :
    g.parseHeaderFromFile fs path = .ok (g.parseBuffer (bytes.take maxHeaderSize)) := by
  have htake : (bytes.take maxHeaderSize).length = maxHeaderSize := by
    rw [List.length_take]
    omega
  simp [parseHeaderFromFile, hfile, htake]

end Parse

end IqzipCompressionHeader

end IQzip
