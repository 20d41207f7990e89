import IQzip.DecoderParameters

/-! # The written file against the parser: acceptance and a second write

The parser reads 18 bytes whatever it finds in them, and keeps the header twice: as raw bytes, and
as the block size, the interval and the option that `write_header_to_file` looks at. The raw bytes
are always a prefix of the file. The three members are not: of the block size the parser knows two
of three codes, the other two it leaves at zero.

* `parse_accepts_iff`: which files of a header and a payload are accepted.
* `replay_iff`: when a parsed header is written out again as it was. -/

namespace IQzip

open Library IqzipCompressionHeader

/-! ## Acceptance -/

/-- Header and payload have 18 bytes together: the header alone has them for block sizes over 64,
otherwise the payload supplies two or four. -/
def FillsBuffer (cfg : Config) (payload : List U8) : Prop :=
  cfg.blockSize > 64 ∨ (cfg.blockSize > 16 ∨ cfg.restrictedCodes ≠ 0) ∧ 2 ≤ payload.length
    ∨ 4 ≤ payload.length

instance (cfg : Config) (payload : List U8) : Decidable (FillsBuffer cfg payload) :=
  inferInstanceAs (Decidable (_ ∨ _))

section Written

variable (storage : HeaderStorage) (cfg : Config) (payload : List U8)

/-- The length of the file against the 18 bytes. -/
theorem maxHeaderSize_le_iff :
    maxHeaderSize ≤ ((construct storage cfg).headerBytes ++ payload).length
      ↔ FillsBuffer cfg payload := by
  have hmax : maxHeaderSize = 18 := rfl
  have hseg : cfg.blockSize > 64 → cfg.blockSize > 16 ∨ cfg.restrictedCodes ≠ 0 :=
    fun h => Or.inl (by bv_omega)
  rw [List.length_append, length_construct_headerBytes, hmax]
  unfold FillsBuffer
  by_cases hbig : cfg.blockSize > 64
  · rw [if_pos (hseg hbig), if_pos hbig]
    simp only [hbig, true_or, iff_true]
    omega
  · by_cases hext : cfg.blockSize > 16 ∨ cfg.restrictedCodes ≠ 0
    · rw [if_pos hext, if_neg hbig]
      simp only [hbig, hext, false_or, true_and]
      omega
    · rw [if_neg hext, if_neg hbig]
      simp only [hbig, hext, false_or, false_and]
      omega

end Written

/-- **Which files the parser accepts.** For every configuration, legal or not, header storage,
parser object and payload, `parse_header_from_file` returns normally on the file of header and
payload if and only if the block size is over 64, or the header has its Extended Parameters and the
payload two bytes, or the payload has four bytes. -/
theorem parse_accepts_iff (storage : HeaderStorage) (cfg : Config) (g : IqzipCompressionHeader)
    (payload : List U8) {fs : FileSystem} {path : String}
    (hfile : fs.content path = some ((construct storage cfg).headerBytes ++ payload)) :
    (∃ result, g.parseHeaderFromFile fs path = .ok result) ↔ FillsBuffer cfg payload := by
  rw [← maxHeaderSize_le_iff storage cfg payload]
  constructor
  · rintro ⟨result, hparse⟩
    exact length_of_parseHeaderFromFile hfile hparse
  · intro hlen
    exact ⟨_, parseHeaderFromFile_eq_ok g hfile hlen⟩

/-- A header of 18 bytes is accepted with an empty payload. -/
theorem parse_accepts_128 :
    ∃ result, freshParser.parseHeaderFromFile
        (fileOf ((zeroedHeader (commandLineConfig 1 1 1 0 8 1 128)).headerBytes ++ [])) "in.iqz"
      = .ok result :=
  (parse_accepts_iff .zero (commandLineConfig 1 1 1 0 8 1 128) freshParser []
    (FileSystem.content_put_self ..)).mpr (by decide)

/-- **A short file is refused.** At the tool's default block size the header has 16 bytes, so a file
with one byte of payload raises "File reading error". -/
theorem parse_accepts_short :
    (commandLineConfig 1 1 1 0 8 1 64).Legal
      ∧ freshParser.parseHeaderFromFile
          (fileOf ((zeroedHeader (commandLineConfig 1 1 1 0 8 1 64)).headerBytes ++ [7])) "in.iqz"
        = .error (.raised ⟨"File reading error"⟩) :=
  ⟨by decide, rfl⟩

/-! ## The parsed object, written again -/

/-- The bytes of a field are those of the buffer at its place. -/
theorem toList_bytesOf (buffer : List U8) {off n : Nat} (h : off + n ≤ buffer.length) :
    (bytesOf buffer off n).toList = (buffer.drop off).take n := by
  apply List.ext_getElem
  · simp
    omega
  · intro i hi _
    have hi' : i < n := by simpa using hi
    have hlt : off + i < buffer.length := by omega
    simp [bytesOf, List.getD_eq_getElem?_getD, hlt]

section Replay

variable (g : IqzipCompressionHeader) (buffer : List U8)

/-- The mandatory segments of the parser are the first 14 bytes it copied. -/
theorem mandatoryBytes_setFromBuffer (h : 18 ≤ buffer.length) :
    (g.setFromBuffer buffer).mandatoryBytes = buffer.take 14 := by
  have hsplit : (g.setFromBuffer buffer).mandatoryBytes
      = (bytesOf buffer 0 6).toList ++ (bytesOf buffer 6 4).toList ++ (bytesOf buffer 10 2).toList
        ++ (bytesOf buffer 12 2).toList := rfl
  have h6 : buffer.take 14 = buffer.take (6 + 4 + 2 + 2) := rfl
  rw [hsplit, toList_bytesOf buffer (by omega), toList_bytesOf buffer (by omega),
    toList_bytesOf buffer (by omega), toList_bytesOf buffer (by omega), h6, List.take_add,
    List.take_add, List.take_add, List.drop_zero]

/-- The block size the parser caches comes from the first code, or from the second if the first
defers to it. -/
theorem parseBuffer_dBlockSize :
    (g.parseBuffer buffer).2.dBlockSize
      = if (g.setFromBuffer buffer).decodePreprocessorBlockSize = 0 then
          (g.setFromBuffer buffer).decodeExtendedParametersBlockSize
        else (g.setFromBuffer buffer).decodePreprocessorBlockSize := by
  unfold parseBuffer
  dsimp only
  split_ifs <;> rfl

/-- The first code says 8, 16 or nothing. -/
theorem decodePreprocessorBlockSize_le (h : IqzipCompressionHeader) :
    h.decodePreprocessorBlockSize ≤ 16 := by
  unfold IqzipCompressionHeader.decodePreprocessorBlockSize
    CompressionIdentificationPacket.decodePreprocessorBlockSize
  dsimp only
  split_ifs <;> decide

/-- The second code says more than 16 when it is 2 or 3, and never more than 64. -/
theorem parsed_extendedSize :
    ((g.setFromBuffer buffer).decodeExtendedParametersBlockSize > 16
        ↔ extendedCode buffer = 2 ∨ extendedCode buffer = 3)
      ∧ (g.setFromBuffer buffer).decodeExtendedParametersBlockSize ≤ 64 := by
  have hbyte : (g.setFromBuffer buffer).dCip.dSourceDataVariable.extendedParameters.get 0
      = buffer.getD 14 0 := bytesOf_get buffer 14 0
  simp only [IqzipCompressionHeader.decodeExtendedParametersBlockSize,
    CompressionIdentificationPacket.decodeExtendedParametersBlockSize, hbyte, extendedCode]
  generalize buffer.getD 14 0 = b
  revert b
  decide

/-- The cached block size is over 16 when the first code defers to a second one for 32 or 64. -/
theorem parsed_dBlockSize_gt_iff :
    (g.parseBuffer buffer).2.dBlockSize > 16
      ↔ 2 ≤ preprocessorCode buffer ∧ (extendedCode buffer = 2 ∨ extendedCode buffer = 3) := by
  have hpre := parsed_preprocessorSize_eq_zero_iff g buffer
  have hle := decodePreprocessorBlockSize_le (g.setFromBuffer buffer)
  have hdefer : 2 ≤ preprocessorCode buffer
      ↔ (g.setFromBuffer buffer).decodePreprocessorBlockSize = 0 := by
    rw [hpre]
    bv_omega
  rw [parseBuffer_dBlockSize, hdefer, ← (parsed_extendedSize g buffer).1]
  split
  · next hzero => simp [hzero]
  · next hne =>
    simp only [hne, false_and, iff_false]
    bv_omega

/-- The cached block size never reaches the extension. -/
theorem parsed_dBlockSize_le : (g.parseBuffer buffer).2.dBlockSize ≤ 64 := by
  have hle := decodePreprocessorBlockSize_le (g.setFromBuffer buffer)
  have hext := (parsed_extendedSize g buffer).2
  rw [parseBuffer_dBlockSize]
  split
  · exact hext
  · bv_omega

/-- **A second write.** An object that starts with zero members writes the first 14 or 16 bytes it
parsed: its interval and its option stay zero, and its block size decides. -/
theorem replay_headerBytes (storage : HeaderStorage) (h : 18 ≤ buffer.length) :
    ((IqzipCompressionHeader.default storage).parseBuffer buffer).2.headerBytes
      = buffer.take
          (if ((IqzipCompressionHeader.default storage).parseBuffer buffer).2.dBlockSize > 16
            then 16 else 14) := by
  have hle := parsed_dBlockSize_le (IqzipCompressionHeader.default storage) buffer
  have hmandatory := mandatoryBytes_setFromBuffer (IqzipCompressionHeader.default storage) buffer h
  obtain ⟨b, hb⟩ := parseBuffer_snd (IqzipCompressionHeader.default storage) buffer
  rw [hb] at hle ⊢
  have hext : ((IqzipCompressionHeader.default storage).setFromBuffer
      buffer).dCip.dSourceDataVariable.extendedParameters.toList = (buffer.drop 14).take 2 :=
    toList_bytesOf buffer (show 14 + 2 ≤ buffer.length by omega)
  have hbig : ¬ b > 64 := by
    dsimp only at hle
    bv_omega
  rw [headerBytes_eq, optionalBytes]
  change ((IqzipCompressionHeader.default storage).setFromBuffer buffer).mandatoryBytes
    ++ ((if b > 16 ∨ (0 : U16) > 255 ∨ (0 : U8) ≠ 0 then _ else []) ++ if b > 64 then _ else [])
    = buffer.take (if b > 16 then 16 else 14)
  rw [hmandatory, if_neg hbig, hext]
  by_cases h16 : b > 16
  · rw [if_pos (Or.inl h16), if_pos h16, List.append_nil, ← List.take_add]
  · have hnone : ¬ (b > 16 ∨ (0 : U16) > 255 ∨ (0 : U8) ≠ 0) := by
      rintro (h | h | h)
      · exact h16 h
      · exact absurd h (by decide)
      · exact h rfl
    rw [if_neg hnone, if_neg h16, List.append_nil, List.append_nil]

end Replay

/-! ## The codes of a written file -/

section Bytes

variable (h : IqzipCompressionHeader) (payload : List U8)

/-- Byte 11 of the file is the second Preprocessor byte. -/
theorem written_byte_eleven :
    (h.headerBytes ++ payload).getD 11 0 = h.dCip.dSourceDataVariable.preprocessor.get 1 := by
  rw [headerBytes_eq, List.append_assoc, ← setFromBuffer_preprocessor freshParser h]
  exact (bytesOf_get (n := 2) _ 10 1).symm

/-- Byte 14 of the file is the first Extended Parameters byte, when that segment is written. -/
theorem written_byte_fourteen (hemit : h.dBlockSize > 16 ∨ h.dRsi > 255 ∨ h.dRestrictedCodes ≠ 0) :
    (h.headerBytes ++ payload).getD 14 0
      = h.dCip.dSourceDataVariable.extendedParameters.get 0 := by
  rw [headerBytes_eq, List.append_assoc, optionalBytes, if_pos hemit, List.append_assoc]
  have hread := setFromBuffer_extendedParameters freshParser h
    ((if h.dBlockSize > 64 then h.dIqzipHeader.toBytes else []) ++ payload) _
    (v := h.dCip.dSourceDataVariable.extendedParameters) rfl
  exact (bytesOf_get (n := 2) _ 14 0).symm.trans (congrArg (fun v => v.get 0) hread)

end Bytes

/-- Storage bits under the two-bit code: of the codes 0 and 1 the top bit is that of the storage. -/
theorem shift_or_code (s : U8) :
    ((2 : U8) ≤ s >>> 6 ||| 0 ↔ s.getLsbD 7 = true)
      ∧ ((2 : U8) ≤ s >>> 6 ||| 1 ↔ s.getLsbD 7 = true)
      ∧ (2 : U8) ≤ s >>> 6 ||| 2 ∧ (2 : U8) ≤ s >>> 6 ||| 3 := by
  revert s
  decide

section Codes

variable {cfg : Config} (legal : cfg.Legal) (storage : HeaderStorage) (payload : List U8)

include legal in
/-- The first code of a written file: the code of the size, under the bits of the storage. -/
theorem written_preprocessorCode :
    preprocessorCode ((construct storage cfg).headerBytes ++ payload)
      = storage.sourceDataVariable.preprocessor.get 1 >>> 6
        ||| CompressionIdentificationPacket.preprocessorBlockSizeCode cfg.blockSize := by
  have hshift : ∀ b : U8, b >>> 6 = CompressionIdentificationPacket.blockSizeField.get b := by
    decide
  rw [preprocessorCode, written_byte_eleven, construct_sourceDataVariable _ _ legal.cdsPerPacket,
    bytes2_get_one, hshift, BitField.get_or, CompressionIdentificationPacket.blockSizeField_get,
    hshift]

include legal in
/-- The first code defers to the second for the sizes other than 8 and 16. The storage under the
byte can turn the codes of 8 and 16 into one that defers. -/
theorem written_defers_iff :
    2 ≤ preprocessorCode ((construct storage cfg).headerBytes ++ payload)
      ↔ (storage.sourceDataVariable.preprocessor.get 1).getLsbD 7 = true
        ∨ ¬ (cfg.blockSize = 8 ∨ cfg.blockSize = 16) := by
  have hne := legal.blockSize
  obtain ⟨hzero, hone, htwo, hthree⟩ :=
    shift_or_code (storage.sourceDataVariable.preprocessor.get 1)
  rw [written_preprocessorCode legal]
  unfold CompressionIdentificationPacket.preprocessorBlockSizeCode
  split_ifs
  · rw [hzero]
    tauto
  · rw [hone]
    tauto
  · simp only [htwo, true_iff]
    tauto
  · simp only [hthree, true_iff]
    tauto

include legal in
/-- A second code that was written says 32 or 64 for those sizes only. -/
theorem written_extendedCode_of_segment (hseg : cfg.blockSize > 16 ∨ cfg.restrictedCodes ≠ 0) :
    (extendedCode ((construct storage cfg).headerBytes ++ payload) = 2
        ∨ extendedCode ((construct storage cfg).headerBytes ++ payload) = 3)
      ↔ cfg.blockSize = 32 ∨ cfg.blockSize = 64 := by
  have hemit : (construct storage cfg).dBlockSize > 16 ∨ (construct storage cfg).dRsi > 255
      ∨ (construct storage cfg).dRestrictedCodes ≠ 0 := by
    simp only [construct_dBlockSize, construct_dRestrictedCodes]
    tauto
  have hcode : extendedCode ((construct storage cfg).headerBytes ++ payload)
      = (0xc0 ||| CompressionIdentificationPacket.extendedBlockSizeBits cfg.blockSize) &&& 0xf := by
    rw [extendedCode, written_byte_fourteen _ _ hemit,
      construct_sourceDataVariable _ _ legal.cdsPerPacket]
    rfl
  rw [hcode]
  unfold CompressionIdentificationPacket.extendedBlockSizeBits
  by_cases h32 : cfg.blockSize = 32
  · simp [h32]
  by_cases h64 : cfg.blockSize = 64
  · simp [h64]
  simp only [h32, h64, or_self, iff_false, if_false]
  split_ifs <;> decide

/-- Without the segment the second code is the low half of the first payload byte. -/
theorem written_extendedCode_of_payload (hseg : ¬ (cfg.blockSize > 16 ∨ cfg.restrictedCodes ≠ 0)) :
    extendedCode ((construct storage cfg).headerBytes ++ payload) = payload.getD 0 0 &&& 0xf := by
  have hbig : ¬ cfg.blockSize > 64 := fun h => hseg (Or.inl (by bv_omega))
  have hlen : (construct storage cfg).headerBytes.length = 14 := by
    rw [length_construct_headerBytes, if_neg hseg, if_neg hbig]
  rw [extendedCode, List.getD_eq_getElem?_getD, List.getElem?_append_right (by omega), hlen,
    Nat.sub_self, List.getD_eq_getElem?_getD]

end Codes

/-! ## Parse and write again -/

/-- The header is written again as it was: block size 32 or 64; or 8 or 16 without restricted codes,
unless the storage under the first code makes it defer to a payload byte that says 32 or 64. -/
def ReplaysHeader (storage : HeaderStorage) (cfg : Config) (payload : List U8) : Prop :=
  cfg.blockSize = 32 ∨ cfg.blockSize = 64
    ∨ (cfg.blockSize = 8 ∨ cfg.blockSize = 16) ∧ cfg.restrictedCodes = 0
      ∧ ¬ ((storage.sourceDataVariable.preprocessor.get 1).getLsbD 7 = true
        ∧ (payload.getD 0 0 &&& 0xf = 2 ∨ payload.getD 0 0 &&& 0xf = 3))

instance (storage : HeaderStorage) (cfg : Config) (payload : List U8) :
    Decidable (ReplaysHeader storage cfg payload) :=
  inferInstanceAs (Decidable (_ ∨ _))

section Main

variable {cfg : Config} (legal : cfg.Legal) (storage storage' : HeaderStorage) (payload : List U8)

/-- The parser's object of a file that starts with the header of `cfg`. -/
def reparsed (storage storage' : HeaderStorage) (cfg : Config) (payload : List U8) :
    IqzipCompressionHeader :=
  ((IqzipCompressionHeader.default storage').parseBuffer
    (((construct storage cfg).headerBytes ++ payload).take maxHeaderSize)).2

/-- The second write is a prefix of the file, like the header, so it is a matter of lengths. -/
theorem reparsed_headerBytes_iff
    (hlen : 18 ≤ ((construct storage cfg).headerBytes ++ payload).length) :
    (reparsed storage storage' cfg payload).headerBytes = (construct storage cfg).headerBytes
      ↔ (construct storage cfg).headerBytes.length
        = if (reparsed storage storage' cfg payload).dBlockSize > 16 then 16 else 14 := by
  have htake :
      18 ≤ (((construct storage cfg).headerBytes ++ payload).take maxHeaderSize).length := by
    rw [List.length_take]
    exact le_min (le_refl 18) hlen
  have hwrite := replay_headerBytes _ storage' htake
  generalize hn : (if (reparsed storage storage' cfg payload).dBlockSize > 16 then 16 else 14) = n
  have hle : n ≤ 16 := by
    rw [← hn]
    split <;> decide
  have hfront : (reparsed storage storage' cfg payload).headerBytes
      = ((construct storage cfg).headerBytes ++ payload).take n := by
    rw [← hn]
    refine hwrite.trans ?_
    rw [List.take_take, Nat.min_eq_left]
    · rfl
    · exact Nat.le_trans (le_of_eq hn) (Nat.le_trans hle (by decide))
  rw [hfront]
  constructor
  · intro h
    rw [← h, List.length_take]
    omega
  · intro h
    exact List.take_left' h

include legal in
/-- **The second write, on the parsed bytes.** -/
theorem reparsed_headerBytes_eq_iff (hsize : BlockSizeSurvives cfg)
    (hlen : 18 ≤ ((construct storage cfg).headerBytes ++ payload).length) :
    (reparsed storage storage' cfg payload).headerBytes = (construct storage cfg).headerBytes
      ↔ ReplaysHeader storage cfg payload := by
  have hgt := parsed_dBlockSize_gt_iff (IqzipCompressionHeader.default storage')
    (((construct storage cfg).headerBytes ++ payload).take maxHeaderSize)
  rw [preprocessorCode_take, extendedCode_take, written_defers_iff legal] at hgt
  change (reparsed storage storage' cfg payload).dBlockSize > 16 ↔ _ at hgt
  rw [reparsed_headerBytes_iff storage storage' payload hlen, length_construct_headerBytes]
  by_cases hseg : cfg.blockSize > 16 ∨ cfg.restrictedCodes ≠ 0
  · -- 16 or 18 bytes were written; the parser writes 16 for the codes of 32 and 64 only
    rw [written_extendedCode_of_segment legal storage payload hseg] at hgt
    rw [if_pos hseg]
    by_cases hmid : cfg.blockSize = 32 ∨ cfg.blockSize = 64
    · have hother : ¬ (cfg.blockSize = 8 ∨ cfg.blockSize = 16) := by bv_omega
      have hbig : ¬ cfg.blockSize > 64 := by bv_omega
      rw [if_pos (hgt.mpr ⟨Or.inr hother, hmid⟩), if_neg hbig]
      have hyes : ReplaysHeader storage cfg payload := by
        rcases hmid with h | h
        · exact Or.inl h
        · exact Or.inr (Or.inl h)
      simp only [hyes]
    · rw [if_neg (fun h => hmid (hgt.mp h).2)]
      have hnot : ¬ ReplaysHeader storage cfg payload := by
        rintro (h | h | ⟨h, hr, -⟩)
        · exact hmid (Or.inl h)
        · exact hmid (Or.inr h)
        · rcases hseg with hseg | hseg
          · bv_omega
          · exact hseg hr
      simp only [hnot, iff_false]
      split <;> decide
  · -- 14 bytes were written, and the payload answers for the second code
    rw [written_extendedCode_of_payload storage payload hseg] at hgt
    have hsmall : cfg.blockSize = 8 ∨ cfg.blockSize = 16 := by
      have hle : ¬ cfg.blockSize > 16 := fun h => hseg (Or.inl h)
      obtain ⟨k, hlo, hhi, hk⟩ := hsize
      interval_cases k <;> bv_omega
    have hbig : ¬ cfg.blockSize > 64 := fun h => hseg (Or.inl (by bv_omega))
    have hr : cfg.restrictedCodes = 0 := by
      by_contra hr
      exact hseg (Or.inr hr)
    have hmid : ¬ cfg.blockSize = 32 ∧ ¬ cfg.blockSize = 64 := by bv_omega
    simp only [hsmall, not_true, or_false] at hgt
    rw [if_neg hseg, if_neg hbig]
    simp only [ReplaysHeader, hmid, hsmall, hr, false_or, true_and, ← hgt]
    simp

end Main

/-- **Parsing then writing.** For every legal configuration whose block size is a power of two from
8 to 32768, every storage of both objects and every payload that brings the file to 18 bytes: a
default-constructed header that parsed the file writes the header again, byte for byte, if and only
if `ReplaysHeader` holds. No block size over 64 is among them. -/
theorem replay_iff {cfg : Config} (legal : cfg.Legal) (hsize : BlockSizeSurvives cfg)
    (storage storage' : HeaderStorage) (payload : List U8) {fs : FileSystem} {path : String}
    (hfile : fs.content path = some ((construct storage cfg).headerBytes ++ payload))
    (hlen : 18 ≤ ((construct storage cfg).headerBytes ++ payload).length) :
    (∃ n g, (IqzipCompressionHeader.default storage').parseHeaderFromFile fs path = .ok (n, g)
        ∧ g.headerBytes = (construct storage cfg).headerBytes)
      ↔ ReplaysHeader storage cfg payload := by
  rw [parseHeaderFromFile_eq_ok _ hfile hlen,
    ← reparsed_headerBytes_eq_iff legal storage storage' payload hsize hlen]
  constructor
  · rintro ⟨n, g, hok, hbytes⟩
    rw [← hbytes]
    exact congrArg (fun r => r.2.headerBytes) (Except.ok.inj hok)
  · intro h
    exact ⟨_, _, rfl, h⟩

/-- The header of the tool's default configuration is written again. -/
theorem replay_commandLine :
    ∃ n g, freshParser.parseHeaderFromFile
        (fileOf ((zeroedHeader (commandLineConfig 1 1 1 0 8 1 64)).headerBytes ++ [1, 2])) "in.iqz"
      = .ok (n, g)
      ∧ g.headerBytes = (zeroedHeader (commandLineConfig 1 1 1 0 8 1 64)).headerBytes :=
  (replay_iff (show (commandLineConfig 1 1 1 0 8 1 64).Legal by decide)
    ⟨6, by decide, by decide, by decide⟩ .zero .zero [1, 2] (FileSystem.content_put_self ..)
    (by decide)).mpr (by decide)

/-- **The extension is not written again.** The header for block size 128 has 18 bytes; the object
that parsed it has a block size of 0 and writes the first 14 of them. -/
theorem replay_128 :
    (commandLineConfig 1 1 1 0 8 1 128).Legal
      ∧ (zeroedHeader (commandLineConfig 1 1 1 0 8 1 128)).headerBytes.length = 18
      ∧ ∃ g, freshParser.parseHeaderFromFile
          (fileOf ((zeroedHeader (commandLineConfig 1 1 1 0 8 1 128)).headerBytes ++ [1, 2]))
          "in.iqz" = .ok (18, g)
        ∧ g.dBlockSize = 0
        ∧ g.headerBytes
          = (zeroedHeader (commandLineConfig 1 1 1 0 8 1 128)).headerBytes.take 14
        ∧ g.headerBytes ≠ (zeroedHeader (commandLineConfig 1 1 1 0 8 1 128)).headerBytes :=
  ⟨by decide, by decide, _, rfl, by decide, by decide, by decide⟩

end IQzip
