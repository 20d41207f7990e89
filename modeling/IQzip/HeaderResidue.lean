import IQzip.CompressionHeader
import IQzip.HeaderShape

/-! # What uninitialised storage leaves in the header

The constructors do not clear the bytes they are built on, and most setters OR into them. Seven of
the emitted bytes keep the bits of the storage that no setter sets; every other byte is assigned.
`residue` is those bits, and two runs of the constructor emit the same bytes exactly when they start
with the same residue. -/

namespace IQzip

open IqzipCompressionHeader CompressionIdentificationPacket

/-- The bits of the storage that construction for `cfg` leaves, byte by byte: bytes 0, 2 and 4 of
the primary header, byte 0 of the fixed part, the two Preprocessor bytes, and the first Entropy
Coder byte. -/
def residue (cfg : Config) (m : HeaderStorage) : List U8 :=
  [m.primaryHeader.get 0 &&& ~~~CcsdsPacketPrimaryHeader.firstByteBits cfg.version cfg.type
      cfg.secHdrFlag cfg.apid,
    m.primaryHeader.get 2 &&& ~~~CcsdsPacketPrimaryHeader.thirdByteBits cfg.packetSequenceCount,
    m.primaryHeader.get 4 &&& ~~~(cfg.packetDataLength >>> 8).setWidth 8,
    m.sourceDataFixed.get 0 &&& ~~~((cfg.groupingDataLength % 4096) >>> 8).setWidth 8,
    m.sourceDataVariable.preprocessor.get 0 &&& ~~~(statusBits cfg.preprocessorStatus
      ||| (predictorTypeBits cfg.predictorType ||| mapperTypeBits cfg.mapperType)),
    m.sourceDataVariable.preprocessor.get 1 &&& ~~~(preprocessorBlockSizeBits cfg.blockSize
      ||| (dataSenseBits cfg.dataSense ||| sampleResolutionBits cfg.sampleResolution)),
    m.sourceDataVariable.entropyCoder.get 0 &&& ~~~(0x40
      ||| (resolutionRangeBits cfg.sampleResolution
        ||| (cfg.cdsPerPacket >>> 8 &&& entropyCoderCdsesNumMask >>> 8).setWidth 8))]

section Residue

variable {cfg : Config} (legal : cfg.Legal) (m m' : HeaderStorage)

include legal

/-- The optional segments hold nothing of the storage. -/
theorem optionalBytes_construct_eq :
    (construct m cfg).optionalBytes = (construct m' cfg).optionalBytes := by
  simp only [optionalBytes, construct_dBlockSize, construct_dRsi, construct_dRestrictedCodes,
    construct_sourceDataVariable _ _ legal.cdsPerPacket,
    construct_dIqzipHeader _ _ legal.endianness]

/-- The mandatory segments hold the residue and nothing else of the storage. -/
theorem mandatoryBytes_construct_iff :
    (construct m cfg).mandatoryBytes = (construct m' cfg).mandatoryBytes
      ↔ residue cfg m = residue cfg m' := by
  -- byte by byte: `storage ||| bits` on both sides, with the same bits
  simp [mandatoryBytes, construct_primaryHeader, construct_sourceDataFixed,
    construct_sourceDataVariable _ _ legal.cdsPerPacket, residue, BitVec.or_eq_or_iff]

/-- The emitted bytes hold the residue and nothing else of the storage. -/
theorem headerBytes_construct_iff :
    (construct m cfg).headerBytes = (construct m' cfg).headerBytes
      ↔ residue cfg m = residue cfg m' := by
  rw [headerBytes_eq, headerBytes_eq, optionalBytes_construct_eq legal m m',
    List.append_left_inj, mandatoryBytes_construct_iff legal]

/-- **The header file depends on the residue of the storage and on nothing else of it.** For every
legal configuration and every two contents of the storage, the constructor followed by
`write_header_to_file` leaves the same files exactly when the residues are the same. -/
theorem writeHeaderToFile_eq_iff {fs : FileSystem} {path : String} (hw : fs.writable path = true) :
    (construct m cfg).writeHeaderToFile fs path = (construct m' cfg).writeHeaderToFile fs path
      ↔ residue cfg m = residue cfg m' := by
  rw [← headerBytes_construct_iff legal, writeHeaderToFile, writeHeaderToFile, if_pos hw, if_pos hw]
  constructor
  · intro h
    have hbytes := congrArg (fun gs => FileSystem.bytesAt gs path) (Except.ok.inj h)
    simpa using hbytes
  · intro h
    rw [h]

end Residue

/-- Storage that is zero but for the top bit of byte 2 of the primary header. -/
def markedStorage : HeaderStorage :=
  { HeaderStorage.zero with primaryHeader := bytes6 0 0 0x80 0 0 0 }

/-- Two contents with one residue: the setters of the tool's default configuration cover the bits
that differ. -/
theorem writeHeaderToFile_eq_commandLine :
    (construct .zero (commandLineConfig 1 1 1 0 8 1 64)).writeHeaderToFile .empty "out.iqz"
      = (construct { HeaderStorage.zero with primaryHeader := bytes6 0x1f 0x55 0 0xaa 0 0xff }
          (commandLineConfig 1 1 1 0 8 1 64)).writeHeaderToFile .empty "out.iqz" :=
  (writeHeaderToFile_eq_iff (show (commandLineConfig 1 1 1 0 8 1 64).Legal by decide) _ _ rfl).mpr
    (by decide)

/-- **The sequence flags of the file are those of the heap.** At the tool's default configuration
the two contents give different header files. -/
theorem writeHeaderToFile_marked :
    (commandLineConfig 1 1 1 0 8 1 64).Legal
      ∧ (construct .zero (commandLineConfig 1 1 1 0 8 1 64)).headerBytes
        ≠ (construct markedStorage (commandLineConfig 1 1 1 0 8 1 64)).headerBytes := by
  decide

/-- No configuration sets the two top bits of byte 2 of the primary header: `encode_sequence_flags`
shifts the flags out of the byte. So every configuration has storage that changes its header. -/
theorem residue_marked_ne (cfg : Config) : residue cfg .zero ≠ residue cfg markedStorage := by
  have hbit : (CcsdsPacketPrimaryHeader.thirdByteBits cfg.packetSequenceCount)[7] = false := by
    simp [CcsdsPacketPrimaryHeader.thirdByteBits]
  -- bit 7 of the second residue byte is the marked bit
  intro h
  have hbyte := congrArg (fun bytes => (bytes.getD 1 0).getLsbD 7) h
  have hzero : HeaderStorage.zero.primaryHeader.get 2 = 0 := rfl
  have hmarked : markedStorage.primaryHeader.get 2 = 0x80 := rfl
  simp [residue, hzero, hmarked, hbit] at hbyte

end IQzip
