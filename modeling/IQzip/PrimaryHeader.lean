import IQzip.CcsdsTypes

/-! # The CCSDS packet primary header

`ccsds_packet_primary_header`: seven fields packed in six bytes. The setters write with `|=` into
whatever the bytes hold, so the model keeps the bytes as they were before construction as an
argument of the constructor. -/

namespace IQzip

/-- `CCSDS_PRIMARY_HEADER_SIZE`. -/
def ccsdsPrimaryHeaderSize : Nat := 6

/-- `PACKET_VERSION_MASK`. -/
def packetVersionMask : U8 := 0xe0

/-- `PACKET_TYPE_MASK`. -/
def packetTypeMask : U8 := 0x10

/-- `SECONDARY_HEADER_FLAG_MASK`. -/
def secondaryHeaderFlagMask : U8 := 0x8

/-- `APPLICATION_PROCESS_ID_MASK`. -/
def applicationProcessIdMask : U16 := 0x7ff

/-- `SEQUENCE_FLAGS_MASK`. -/
def sequenceFlagsMask : U8 := 0xc0

/-- `packet_primary_header_t`. -/
abbrev PacketPrimaryHeader := Vector U8 6

/-- `ccsds_packet_primary_header`: the constructor arguments it keeps and the packed bytes. -/
structure CcsdsPacketPrimaryHeader where
  dVersion : U8
  dType : U8
  dSecHdrFlag : U8
  dSequenceFlags : U8
  dApid : U16
  dPacketSequenceCount : U16
  dPacketDataLength : U16
  dPrimaryHeader : PacketPrimaryHeader

namespace CcsdsPacketPrimaryHeader

/-! ## Setters -/

/-- `encode_application_process_identifier`. -/
def encodeApplicationProcessIdentifier (h : CcsdsPacketPrimaryHeader) (apid : U16) :
    CcsdsPacketPrimaryHeader :=
  let b := h.dPrimaryHeader
  let b := b.assign 0 (b.get 0 ||| ((apid >>> 8) &&& (applicationProcessIdMask >>> 8)).setWidth 8)
  let b := b.assign 1 (apid.setWidth 8)
  { h with dPrimaryHeader := b }

/-- `encode_packet_data_length`. -/
def encodePacketDataLength (h : CcsdsPacketPrimaryHeader) (dataLength : U16) :
    CcsdsPacketPrimaryHeader :=
  let b := h.dPrimaryHeader
  let b := b.assign 4 (b.get 4 ||| (dataLength >>> 8).setWidth 8)
  let b := b.assign 5 (dataLength.setWidth 8)
  { h with dPrimaryHeader := b }

/-- `encode_secondary_header_flag`: the one setter of the byte that does not mask its argument. -/
def encodeSecondaryHeaderFlag (h : CcsdsPacketPrimaryHeader) (flag : U8) :
    CcsdsPacketPrimaryHeader :=
  let b := h.dPrimaryHeader
  { h with dPrimaryHeader := b.assign 0 (b.get 0 ||| (flag <<< 3)) }

/-- `encode_packet_sequence_count`. -/
def encodePacketSequenceCount (h : CcsdsPacketPrimaryHeader) (sequenceCount : U16) :
    CcsdsPacketPrimaryHeader :=
  -- fourteen bits; the two above them belong to the sequence flags
  let sequenceCount := sequenceCount % 16384
  let b := h.dPrimaryHeader
  let b := b.assign 2 (b.get 2 ||| ((sequenceCount >>> 8) &&& 0x3f).setWidth 8)
  let b := b.assign 3 (sequenceCount.setWidth 8)
  { h with dPrimaryHeader := b }

/-- `encode_sequence_flags`. The mask is applied before the shift, so the shifted value has no bit
left below bit 12 and the byte keeps what it held. -/
def encodeSequenceFlags (h : CcsdsPacketPrimaryHeader) (sequenceFlags : U8) :
    CcsdsPacketPrimaryHeader :=
  let b := h.dPrimaryHeader
  { h with dPrimaryHeader := b.assign 2 (b.get 2 ||| ((sequenceFlags &&& 0xc0) <<< 6)) }

/-- `encode_type`. -/
def encodeType (h : CcsdsPacketPrimaryHeader) (type : U8) : CcsdsPacketPrimaryHeader :=
  let b := h.dPrimaryHeader
  { h with dPrimaryHeader := b.assign 0 (b.get 0 ||| ((type &&& 0x1) <<< 4)) }

/-- `encode_version`. -/
def encodeVersion (h : CcsdsPacketPrimaryHeader) (version : U8) : CcsdsPacketPrimaryHeader :=
  let b := h.dPrimaryHeader
  { h with dPrimaryHeader := b.assign 0 (b.get 0 ||| ((version &&& 0x7) <<< 5)) }

/-- `encode()`, the setters in the order the constructor runs them. -/
def encode (h : CcsdsPacketPrimaryHeader) : CcsdsPacketPrimaryHeader :=
  let h := h.encodeType h.dType
  let h := h.encodeVersion h.dVersion
  let h := h.encodeSequenceFlags h.dSequenceFlags
  let h := h.encodeSecondaryHeaderFlag h.dSecHdrFlag
  let h := h.encodePacketSequenceCount h.dPacketSequenceCount
  let h := h.encodeApplicationProcessIdentifier h.dApid
  h.encodePacketDataLength h.dPacketDataLength

/-- The constructor with arguments, over the bytes `storage` that the object is built on. -/
def construct (storage : PacketPrimaryHeader) (version type secHdrFlag : U8) (apid : U16)
    (sequenceFlags : U8) (packetSequenceCount packetDataLength : U16) :
    CcsdsPacketPrimaryHeader :=
  encode
    { dVersion := version
      dType := type
      dSecHdrFlag := secHdrFlag
      dSequenceFlags := sequenceFlags
      dApid := apid
      dPacketSequenceCount := packetSequenceCount
      dPacketDataLength := packetDataLength
      dPrimaryHeader := storage }

/-- The default constructor: the scalar members are zero, the bytes are left alone. -/
def default (storage : PacketPrimaryHeader) : CcsdsPacketPrimaryHeader :=
  { dVersion := 0
    dType := 0
    dSecHdrFlag := 0
    dSequenceFlags := 0
    dApid := 0
    dPacketSequenceCount := 0
    dPacketDataLength := 0
    dPrimaryHeader := storage }

/-- `set_primary_header`. -/
def setPrimaryHeader (h : CcsdsPacketPrimaryHeader) (hdr : PacketPrimaryHeader) :
    CcsdsPacketPrimaryHeader :=
  { h with dPrimaryHeader := hdr }

/-! ## Getters -/

/-- `decode_version`. -/
def decodeVersion (h : CcsdsPacketPrimaryHeader) : U8 :=
  (h.dPrimaryHeader.get 0 &&& packetVersionMask) >>> 5

/-- `decode_type`. -/
def decodeType (h : CcsdsPacketPrimaryHeader) : U8 :=
  (h.dPrimaryHeader.get 0 &&& packetTypeMask) >>> 4

/-- `decode_secondary_header_flag`. -/
def decodeSecondaryHeaderFlag (h : CcsdsPacketPrimaryHeader) : U8 :=
  (h.dPrimaryHeader.get 0 &&& secondaryHeaderFlagMask) >>> 3

/-- `decode_application_process_identifier`. -/
def decodeApplicationProcessIdentifier (h : CcsdsPacketPrimaryHeader) : U16 :=
  (h.dPrimaryHeader.get 1).setWidth 16
    ||| (((h.dPrimaryHeader.get 0).setWidth 16 &&& (applicationProcessIdMask >>> 8)) <<< 8)

/-- `decode_sequence_flags`. -/
def decodeSequenceFlags (h : CcsdsPacketPrimaryHeader) : U8 :=
  (h.dPrimaryHeader.get 2 &&& sequenceFlagsMask) >>> 6

/-- `decode_packet_sequence_count`. -/
def decodePacketSequenceCount (h : CcsdsPacketPrimaryHeader) : U16 :=
  (h.dPrimaryHeader.get 3).setWidth 16 ||| (((h.dPrimaryHeader.get 2).setWidth 16 &&& 0x3f) <<< 8)

/-- `decode_packet_data_length`. -/
def decodePacketDataLength (h : CcsdsPacketPrimaryHeader) : U16 :=
  (h.dPrimaryHeader.get 5).setWidth 16 ||| ((h.dPrimaryHeader.get 4).setWidth 16 <<< 8)

/-! ## What the constructor leaves in each byte -/

/-- A shift by six of the two top bits leaves nothing in a byte. -/
theorem sequenceFlags_shifted_out (sequenceFlags : U8) : (sequenceFlags &&& 192#8) <<< 6 = 0#8 := by
  revert sequenceFlags
  decide

/-- The bits `encode()` ORs into byte 0: version, type, secondary header flag and the top three
bits of the application process identifier. -/
def firstByteBits (version type secHdrFlag : U8) (apid : U16) : U8 :=
  (type &&& 0x1) <<< 4 ||| ((version &&& 0x7) <<< 5 ||| (secHdrFlag <<< 3
    ||| ((apid >>> 8) &&& (applicationProcessIdMask >>> 8)).setWidth 8))

/-- The bits `encode()` ORs into byte 2: the top six bits of the packet sequence count. -/
def thirdByteBits (packetSequenceCount : U16) : U8 :=
  (((packetSequenceCount % 16384) >>> 8) &&& 0x3f).setWidth 8

/-- **The six bytes after construction.** Bytes 1, 3 and 5 are assigned; bytes 0, 2 and 4 keep the
bits of the storage under the bits the setters OR in. -/
theorem construct_bytes (storage : PacketPrimaryHeader) (version type secHdrFlag : U8)
    (apid : U16) (sequenceFlags : U8) (packetSequenceCount packetDataLength : U16) :
    (construct storage version type secHdrFlag apid sequenceFlags packetSequenceCount
      packetDataLength).dPrimaryHeader
      = bytes6 (storage.get 0 ||| firstByteBits version type secHdrFlag apid)
          (apid.setWidth 8)
          (storage.get 2 ||| thirdByteBits packetSequenceCount)
          ((packetSequenceCount % 16384).setWidth 8)
          (storage.get 4 ||| (packetDataLength >>> 8).setWidth 8)
          (packetDataLength.setWidth 8) := by
  refine eq_bytes6 ?_ ?_ ?_ ?_ ?_ ?_ <;>
    simp [construct, encode, encodeType, encodeVersion, encodeSequenceFlags,
      encodeSecondaryHeaderFlag, encodePacketSequenceCount, encodeApplicationProcessIdentifier,
      encodePacketDataLength, firstByteBits, thirdByteBits, BitVec.or_assoc]
  -- only byte 2 is left: the sequence flags contribute nothing to it
  rw [← BitVec.or_assoc, sequenceFlags_shifted_out]
  simp

end CcsdsPacketPrimaryHeader

end IQzip
