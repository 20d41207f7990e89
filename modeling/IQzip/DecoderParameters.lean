import IQzip.DecoderSetup

/-! # The coder parameters a header spells

`decompress_init` turns header bytes into the four parameters of `aec_decode_init` and checks none
of them on the way. This file follows every code of every field from its byte to the coder.

* `decoder_flags_iff`: the flags word is the one the header's option bits say.
* `guarded_iff`: the files on which the coder gets parameters in range, or is not called. -/

namespace IQzip

open Library IqzipCompressionHeader

variable {σ : Type}

/-! ## From the bytes to the members -/

section Parsed

variable (g : IqzipCompressionHeader) (buffer : List U8)

/-- A cell of a field is the byte of the buffer at its place. -/
@[simp] theorem bytesOf_get {n : Nat} (off : Nat) (i : Fin n) :
    (bytesOf buffer off n).get i = buffer.getD (off + i) 0 := by
  change (Vector.ofFn fun i : Fin n => buffer.getD (off + i) 0)[i.val] = _
  simp

/-- What the members are made of: the object is the buffer spread over the headers, and nothing of
it depends on the cached block size. -/
theorem decodedConfig_parseBuffer :
    (g.parseBuffer buffer).2.decodedConfig = (g.setFromBuffer buffer).decodedConfig := by
  obtain ⟨b, hb⟩ := parseBuffer_snd g buffer
  rw [hb]
  rfl

/-- The interval is byte 9 plus one, modulo 256. -/
theorem parsed_interval :
    (g.setFromBuffer buffer).decodedConfig.referenceSampleInterval = buffer.getD 9 0 + 1 := by
  change (bytesOf buffer 6 4).get 3 + 1 = _
  rw [bytesOf_get]
  rfl

/-- The sample resolution is the low five bits of byte 11. -/
theorem parsed_sampleResolution :
    (g.setFromBuffer buffer).decodedConfig.sampleResolution = buffer.getD 11 0 &&& 0x1f := by
  change (bytesOf buffer 10 2).get 1 &&& 0x1f = _
  rw [bytesOf_get]
  rfl

/-- A one-bit field is its bit, as a number. -/
theorem and_shiftRight_five (b : U8) :
    (b &&& 0x20) >>> 5 = if b.getLsbD 5 then 1 else 0 := by
  revert b
  decide

/-- The restricted-code bit is left where it stands: a set bit gives `0x40`. -/
theorem and_restrictedCodesMask (b : U8) :
    b &&& extendedParametersRestrictedCodesMask = if b.getLsbD 6 then 0x40 else 0 := by
  revert b
  decide

/-- The data sense is bit 5 of byte 11. -/
theorem parsed_dataSense :
    (g.setFromBuffer buffer).decodedConfig.dataSense
      = if (buffer.getD 11 0).getLsbD 5 then 1 else 0 := by
  rw [← and_shiftRight_five]
  change ((bytesOf buffer 10 2).get 1 &&& 0x20) >>> 5 = _
  rw [bytesOf_get]
  rfl

/-- The preprocessor status is bit 5 of byte 10. -/
theorem parsed_preprocessorStatus :
    (g.setFromBuffer buffer).decodedConfig.preprocessorStatus
      = if (buffer.getD 10 0).getLsbD 5 then 1 else 0 := by
  rw [← and_shiftRight_five]
  change ((bytesOf buffer 10 2).get 0 &&& 0x20) >>> 5 = _
  rw [bytesOf_get]
  rfl

/-- The restricted codes are bit 6 of byte 15, at the weight it has in its byte. -/
theorem parsed_restrictedCodes :
    (g.setFromBuffer buffer).decodedConfig.restrictedCodes
      = if (buffer.getD 15 0).getLsbD 6 then 0x40 else 0 := by
  rw [← and_restrictedCodesMask]
  change (bytesOf buffer 14 2).get 1 &&& extendedParametersRestrictedCodesMask = _
  rw [bytesOf_get]
  rfl

/-- The endianness is bit 7 of byte 17. -/
theorem parsed_endianness_eq :
    (g.setFromBuffer buffer).decodedConfig.endianness
      = if (buffer.getD 17 0).getLsbD 7 then 1 else 0 := by
  have hbit := parsed_endianness g buffer
  rw [decodedConfig_parseBuffer] at hbit
  rw [← hbit]
  change (g.setFromBuffer buffer).decodeIqzipHeaderEndianess.setWidth 8
    = if ((g.setFromBuffer buffer).decodeIqzipHeaderEndianess.setWidth 8).getLsbD 0 then 1 else 0
  rw [decodeIqzipHeaderEndianess_eq]
  -- a field of one bit
  generalize (g.setFromBuffer buffer).dIqzipHeader.endianness = e
  revert e
  decide

end Parsed

/-! ## The flags word -/

/-- Bit `k` of byte `i` of a header. -/
def headerBit (bytes : List U8) (i k : Nat) : Bool := (bytes.getD i 0).getLsbD k

/-- The flags a header of 18 bytes asks for: the data sense and the endianness are inverted, the
preprocessor status and the restricted codes are not. -/
def headerFlags (bytes : List U8) : U32 :=
  aecData3Byte ||| aecNotEnforce
    ||| (if headerBit bytes 11 5 then 0 else aecDataSigned)
    ||| (if headerBit bytes 17 7 then 0 else aecDataMsb)
    ||| (if headerBit bytes 10 5 then aecDataPreprocess else 0)
    ||| (if headerBit bytes 15 6 then aecRestricted else 0)

/-- **The flags word in terms of the four bits.** The restricted codes reach bit 10. -/
theorem flagsOf_of_bits {cfg : Config} {sense endian status restricted : Bool}
    (hsense : cfg.dataSense = if sense then 1 else 0)
    (hendian : cfg.endianness = if endian then 1 else 0)
    (hstatus : cfg.preprocessorStatus = if status then 1 else 0)
    (hrestricted : cfg.restrictedCodes = if restricted then 0x40 else 0) :
    flagsOf cfg = aecData3Byte ||| aecNotEnforce
      ||| (if sense then 0 else aecDataSigned)
      ||| (if endian then 0 else aecDataMsb)
      ||| (if status then aecDataPreprocess else 0)
      ||| (if restricted then 0x400 else 0) := by
  simp only [flagsOf, hsense, hendian, hstatus, hrestricted]
  clear hsense hendian hstatus hrestricted
  revert sense endian status restricted
  decide

/-- Bit 10 is no flag: a word with it is not the header's. -/
theorem restricted_word_iff (sense endian status restricted : Bool) :
    (aecData3Byte ||| aecNotEnforce
        ||| (if sense then 0 else aecDataSigned)
        ||| (if endian then 0 else aecDataMsb)
        ||| (if status then aecDataPreprocess else 0)
        ||| (if restricted then 0x400 else 0)
      = aecData3Byte ||| aecNotEnforce
        ||| (if sense then 0 else aecDataSigned)
        ||| (if endian then 0 else aecDataMsb)
        ||| (if status then aecDataPreprocess else 0)
        ||| (if restricted then aecRestricted else 0))
      ↔ restricted = false := by
  revert sense endian status restricted
  decide

/-- The parser copies the first 18 bytes as they are. -/
theorem getD_take_maxHeaderSize (bytes : List U8) {i : Nat} (hi : i < maxHeaderSize) :
    (bytes.take maxHeaderSize).getD i 0 = bytes.getD i 0 := by
  rw [List.getD_eq_getElem?_getD, List.getD_eq_getElem?_getD, List.getElem?_take_of_lt hi]

/-- The header's word and the computed one part at the restricted codes. -/
theorem flagsOf_parsed_iff (g : IqzipCompressionHeader) (bytes : List U8) :
    flagsOf (g.parseBuffer (bytes.take maxHeaderSize)).2.decodedConfig = headerFlags bytes
      ↔ headerBit bytes 15 6 = false := by
  have hsense := parsed_dataSense g (bytes.take maxHeaderSize)
  have hendian := parsed_endianness_eq g (bytes.take maxHeaderSize)
  have hstatus := parsed_preprocessorStatus g (bytes.take maxHeaderSize)
  have hrestricted := parsed_restrictedCodes g (bytes.take maxHeaderSize)
  rw [getD_take_maxHeaderSize bytes (by decide)] at hsense hendian hstatus hrestricted
  rw [decodedConfig_parseBuffer, flagsOf_of_bits hsense hendian hstatus hrestricted]
  exact restricted_word_iff _ _ _ _

/-- A file that is parsed has the 18 bytes the parser reads. -/
theorem length_of_parseHeaderFromFile {g : IqzipCompressionHeader} {fs : FileSystem}
    {path : String} {bytes : List U8} {result : Nat × IqzipCompressionHeader}
    (hfile : fs.content path = some bytes) (hparse : g.parseHeaderFromFile fs path = .ok result) :
    maxHeaderSize ≤ bytes.length := by
  by_contra hshort
  have htake : (bytes.take maxHeaderSize).length ≠ maxHeaderSize := by
    rw [List.length_take]
    omega
  simp only [parseHeaderFromFile, hfile, if_pos htake] at hparse
  cases hparse

/-- **The option flags of the decoder.** For every file with all header segments, the flags word
that `init_aec_stream` computes is the one the header's four option bits say if and only if the
restricted-code bit is 0. -/
theorem decoder_flags_iff (api : Aec σ) (c : DecompressorImpl σ) {fs : FileSystem} {fin : String}
    (fout : String) {bytes : List U8} {hdr : IqzipCompressionHeader}
    (hfile : fs.content fin = some bytes)
    (hparse : c.dCcsdsCipHdr.parseHeaderFromFile fs fin = .ok (18, hdr)) :
    (∃ status c' fs', c.decompressInit api fs fin fout = .ok (status, c', fs')
        ∧ c'.dStrm.flags = headerFlags bytes)
      ↔ headerBit bytes 15 6 = false := by
  have hlen := length_of_parseHeaderFromFile hfile hparse
  obtain ⟨status, c', fs', hinit, hparams, -⟩ := c.decompressInit_setup api fout hfile hlen
  have hflags := congrArg AecParams.flags hparams
  rw [← flagsOf_parsed_iff c.dCcsdsCipHdr bytes]
  constructor
  · rintro ⟨status', c'', fs'', hinit', hsame⟩
    rw [hinit] at hinit'
    cases hinit'
    rw [← hsame, hflags]
    rfl
  · intro h
    exact ⟨status, c', fs', hinit, hflags.trans h⟩

/-- The flags of a header with block size 128 and no restricted codes. -/
theorem decoder_flags_commandLine :
    ∃ status c' fs', (DecompressorImpl.construct (zeroStorage _)).decompressInit
        (.ofFunctions id id) (fileOf (zeroedHeader (commandLineConfig 1 1 1 0 8 1 128)).headerBytes)
        "in.iqz" "out" = .ok (status, c', fs')
      ∧ c'.dStrm.flags
        = headerFlags (zeroedHeader (commandLineConfig 1 1 1 0 8 1 128)).headerBytes :=
  (decoder_flags_iff (.ofFunctions id id) (DecompressorImpl.construct (zeroStorage _)) "out"
    (FileSystem.content_put_self ..) rfl).mpr (by decide)

/-- **Restricted codes set another flag.** The header says `0x5a`, the coder gets `0x44a`. -/
theorem decoder_flags_restricted :
    let bytes := (zeroedHeader (commandLineConfig 1 1 1 1 8 1 128)).headerBytes
    let c : DecompressorImpl (Given U8) := DecompressorImpl.construct (zeroStorage _)
    (∃ hdr, c.dCcsdsCipHdr.parseHeaderFromFile (fileOf bytes) "in.iqz" = .ok (18, hdr))
      ∧ headerFlags bytes = 0x5a
      ∧ ∃ status c' fs', c.decompressInit (.ofFunctions id id) (fileOf bytes) "in.iqz" "out"
          = .ok (status, c', fs')
        ∧ c'.dStrm.flags = 0x44a :=
  ⟨⟨_, rfl⟩, by decide, _, _, _, rfl, by decide⟩

/-! ## The call of the coder -/

/-- The parameters with which `decompress_init` calls `aec_decode_init`, none if it returns or
raises before the call. -/
def DecompressorImpl.coderCall (c : DecompressorImpl σ) (fs : FileSystem) (fin fout : String) :
    Option AecParams :=
  match c.readHeader fs fin with
  | .error _ => none
  | .ok c =>
    if (c.inputStream.openFile fs fin).isOpen = false then none
    else if (c.outputStream.openFile fs fout false).1.isOpen = false then none
    else some c.dStrm.toAecParams

/-- Both files are open after `decompress_init` has tried to open them. -/
def DecompressorImpl.OpensBoth (c : DecompressorImpl σ) (fs : FileSystem) (fin fout : String) :
    Prop :=
  (c.inputStream.openFile fs fin).isOpen = true
    ∧ (c.outputStream.openFile fs fout false).1.isOpen = true

instance (c : DecompressorImpl σ) (fs : FileSystem) (fin fout : String) :
    Decidable (c.OpensBoth fs fin fout) :=
  inferInstanceAs (Decidable (_ ∧ _))

section Call

variable (api : Aec σ) (c : DecompressorImpl σ) (fs : FileSystem) (fin fout : String)

/-- **A call is what `coderCall` says it is**: its status and its state are the function's, and its
parameters are those of the stream. -/
theorem DecompressorImpl.decompressInit_of_coderCall {p : AecParams}
    (hcall : c.coderCall fs fin fout = some p) :
    ∃ c' fs', c.decompressInit api fs fin fout = .ok ((api.init p).1, c', fs')
      ∧ c'.dStrm.toAecParams = p ∧ c'.dStrm.state = (api.init p).2 := by
  unfold coderCall at hcall
  unfold decompressInit
  cases hread : c.readHeader fs fin with
  | error e =>
    rw [hread] at hcall
    cases hcall
  | ok d =>
    rw [hread] at hcall
    dsimp only at hcall ⊢
    split_ifs at hcall ⊢
    cases hcall
    exact ⟨_, _, rfl, rfl, rfl⟩

/-- **Without a call** the coder plays no part in what the function does, and the function raises,
aborts or returns non-zero. -/
theorem DecompressorImpl.decompressInit_of_coderCall_none
    (hcall : c.coderCall fs fin fout = none) :
    (∀ api' : Aec σ, c.decompressInit api' fs fin fout = c.decompressInit api fs fin fout)
      ∧ ((∃ e, c.readHeader fs fin = .error e ∧ c.decompressInit api fs fin fout = .error e)
        ∨ ∃ status c' fs', c.decompressInit api fs fin fout = .ok (status, c', fs')
          ∧ status ≠ 0) := by
  unfold coderCall at hcall
  unfold decompressInit
  cases hread : c.readHeader fs fin with
  | error e => exact ⟨fun _ => rfl, Or.inl ⟨e, rfl, rfl⟩⟩
  | ok d =>
    rw [hread] at hcall
    dsimp only at hcall ⊢
    -- a file that does not open returns -1
    split_ifs at hcall ⊢
    · exact ⟨fun _ => rfl, Or.inr ⟨_, _, _, rfl, by decide⟩⟩
    · exact ⟨fun _ => rfl, Or.inr ⟨_, _, _, rfl, by decide⟩⟩

variable {fs fin} {bytes : List U8} {c}

/-- With a file to read, the only error before the call is the exception of the parser. -/
theorem DecompressorImpl.raised_of_readHeader (hfile : fs.content fin = some bytes) {e : Abort}
    (hread : c.readHeader fs fin = .error e) : ∃ r, e = .raised r := by
  simp only [readHeader, parseHeaderFromFile, hfile] at hread
  by_cases hlen : (bytes.take maxHeaderSize).length ≠ maxHeaderSize
  · rw [if_pos hlen] at hread
    cases hread
    exact ⟨_, rfl⟩
  · rw [if_neg hlen] at hread
    cases hread

variable (c)

/-- The call is made when the file has 18 bytes and both files open, with the parameters that the
18 bytes spell. -/
theorem DecompressorImpl.coderCall_eq (hfile : fs.content fin = some bytes) :
    c.coderCall fs fin fout
      = if maxHeaderSize ≤ bytes.length ∧ c.OpensBoth fs fin fout then
          some (aecParamsOf
            (c.dCcsdsCipHdr.setFromBuffer (bytes.take maxHeaderSize)).decodedConfig)
        else none := by
  by_cases hlen : maxHeaderSize ≤ bytes.length
  · have hread := parseHeaderFromFile_eq_ok c.dCcsdsCipHdr hfile hlen
    simp only [coderCall, readHeader, hread, OpensBoth, hlen, true_and, ← decodedConfig_parseBuffer]
    by_cases hi : (c.inputStream.openFile fs fin).isOpen <;>
      by_cases ho : (c.outputStream.openFile fs fout false).1.isOpen <;> simp [hi, ho, freshStream]
  · have hshort : (bytes.take maxHeaderSize).length ≠ maxHeaderSize := by
      rw [List.length_take]
      omega
    rw [if_neg (fun h => hlen h.1)]
    simp only [coderCall, readHeader, parseHeaderFromFile, hfile, if_pos hshort]

end Call

/-! ## The block-size codes -/

/-- The code of the Preprocessor subfield: two bits of byte 11. -/
def preprocessorCode (bytes : List U8) : U8 := bytes.getD 11 0 >>> 6

/-- The code of the Extended Parameters subfield: four bits of byte 14. -/
def extendedCode (bytes : List U8) : U8 := bytes.getD 14 0 &&& 0xf

/-- The code of the IQzip extension: four bits of byte 16. -/
def extensionCode (bytes : List U8) : U8 := bytes.getD 16 0 &&& 0xf

/-- The chain of codes meets one that its decoder calls invalid: 4 to 14 in the Extended
Parameters, 10 to 15 in the extension. A code is met when the ones before it defer to it. -/
def MeetsReservedCode (bytes : List U8) : Prop :=
  2 ≤ preprocessorCode bytes
    ∧ (4 ≤ extendedCode bytes ∧ extendedCode bytes ≤ 14
      ∨ extendedCode bytes = 15 ∧ 10 ≤ extensionCode bytes)

/-- The chain of codes ends at one with a size. -/
def ValidSizeCodes (bytes : List U8) : Prop :=
  preprocessorCode bytes ≤ 1 ∨ extendedCode bytes ≤ 3
    ∨ extendedCode bytes = 15 ∧ extensionCode bytes ≤ 9

instance (bytes : List U8) : Decidable (MeetsReservedCode bytes) :=
  inferInstanceAs (Decidable (_ ∧ _))

instance (bytes : List U8) : Decidable (ValidSizeCodes bytes) :=
  inferInstanceAs (Decidable (_ ∨ _))

section Codes

variable (g : IqzipCompressionHeader) (buffer : List U8)

/-- Two of the four Preprocessor codes have a size. -/
theorem parsed_preprocessorSize_eq_zero_iff :
    (g.setFromBuffer buffer).decodePreprocessorBlockSize = 0 ↔ ¬ preprocessorCode buffer ≤ 1 := by
  have hbyte : (g.setFromBuffer buffer).dCip.dSourceDataVariable.preprocessor.get 1
      = buffer.getD 11 0 := bytesOf_get buffer 10 1
  simp only [IqzipCompressionHeader.decodePreprocessorBlockSize,
    CompressionIdentificationPacket.decodePreprocessorBlockSize, hbyte, preprocessorCode]
  generalize buffer.getD 11 0 = b
  revert b
  decide

/-- Four of the sixteen Extended Parameters codes have a size. -/
theorem parsed_extendedSize_eq_zero_iff :
    (g.setFromBuffer buffer).decodeExtendedParametersBlockSize = 0
      ↔ ¬ extendedCode buffer ≤ 3 := by
  have hbyte : (g.setFromBuffer buffer).dCip.dSourceDataVariable.extendedParameters.get 0
      = buffer.getD 14 0 := bytesOf_get buffer 14 0
  simp only [IqzipCompressionHeader.decodeExtendedParametersBlockSize,
    CompressionIdentificationPacket.decodeExtendedParametersBlockSize, hbyte, extendedCode]
  generalize buffer.getD 14 0 = b
  revert b
  decide

/-- Ten of the sixteen extension codes have a size. -/
theorem parsed_extensionSize_eq_zero_iff :
    (g.setFromBuffer buffer).decodeIqzipHeaderBlockSize = 0 ↔ ¬ extensionCode buffer ≤ 9 := by
  have hcode : (g.setFromBuffer buffer).dIqzipHeader.blockSize.setWidth 8
      = buffer.getD 16 0 &&& 0xf := by
    change ((buffer.getD 17 0 ++ buffer.getD 16 0 : BitVec 16).extractLsb' 0 4).setWidth 8 = _
    -- the low byte of the unit is byte 16
    apply BitVec.eq_of_getLsbD_eq
    intro i hi
    rw [BitVec.getLsbD_setWidth, BitVec.getLsbD_extractLsb', BitVec.getLsbD_append,
      BitVec.getLsbD_and]
    interval_cases i <;> simp
  simp only [decodeIqzipHeaderBlockSize, hcode, extensionCode]
  generalize buffer.getD 16 0 = b
  revert b
  decide

/-- **A positive size from valid codes.** A size may also come from a valid extension code behind a
reserved one; it is then no size the header spells. -/
theorem parsed_blockSize_valid_iff :
    ((g.setFromBuffer buffer).decodeBlockSize ≠ 0 ∧ ¬ MeetsReservedCode buffer)
      ↔ ValidSizeCodes buffer := by
  have hpre := parsed_preprocessorSize_eq_zero_iff g buffer
  have hext := parsed_extendedSize_eq_zero_iff g buffer
  have hiq := parsed_extensionSize_eq_zero_iff g buffer
  have hnibble : extendedCode buffer ≤ 15 := by
    rw [extendedCode]
    generalize buffer.getD 14 0 = b
    revert b
    decide
  have hzero : (g.setFromBuffer buffer).decodeBlockSize = 0
      ↔ ¬ preprocessorCode buffer ≤ 1 ∧ ¬ extendedCode buffer ≤ 3
        ∧ ¬ extensionCode buffer ≤ 9 := by
    rw [← hpre, ← hext, ← hiq]
    unfold decodeBlockSize
    dsimp only
    -- the size that is returned, and the ones before it that were zero
    split_ifs <;> tauto
  rw [Ne, hzero]
  unfold MeetsReservedCode ValidSizeCodes
  generalize preprocessorCode buffer = p
  generalize extensionCode buffer = q at *
  generalize extendedCode buffer = e at *
  bv_omega

end Codes

/-! ## Malformed headers -/

/-- The coder is guarded against the header: `decompress_init` raises or returns non-zero before it
calls `aec_decode_init`, or the call has its parameters in range and no reserved code in its block
size. -/
def DecompressorImpl.Guarded (api : Aec σ) (c : DecompressorImpl σ) (fs : FileSystem)
    (fin fout : String) (bytes : List U8) : Prop :=
  match c.coderCall fs fin fout with
  | none =>
    (∃ e, c.decompressInit api fs fin fout = .error (.raised e))
      ∨ ∃ status c' fs', c.decompressInit api fs fin fout = .ok (status, c', fs') ∧ status ≠ 0
  | some p =>
    p.blockSize > 0 ∧ p.rsi > 0 ∧ (1 ≤ p.bitsPerSample ∧ p.bitsPerSample ≤ 32)
      ∧ ¬ MeetsReservedCode bytes

/-- The header bytes that give parameters in range. -/
structure HeaderInRange (bytes : List U8) : Prop where
  interval : bytes.getD 9 0 ≠ 0xff
  resolution : bytes.getD 11 0 &&& 0x1f ≠ 0
  sizeCodes : ValidSizeCodes bytes

instance (bytes : List U8) : Decidable (HeaderInRange bytes) :=
  decidable_of_iff
    (bytes.getD 9 0 ≠ 0xff ∧ bytes.getD 11 0 &&& 0x1f ≠ 0 ∧ ValidSizeCodes bytes)
    ⟨fun ⟨h1, h2, h3⟩ => ⟨h1, h2, h3⟩, fun ⟨h1, h2, h3⟩ => ⟨h1, h2, h3⟩⟩

section Take

variable (bytes : List U8)

/-- The codes of a header are in its first 18 bytes. -/
theorem preprocessorCode_take :
    preprocessorCode (bytes.take maxHeaderSize) = preprocessorCode bytes := by
  rw [preprocessorCode, getD_take_maxHeaderSize bytes (by decide), preprocessorCode]

/-- So is the code of the extended parameters. -/
theorem extendedCode_take : extendedCode (bytes.take maxHeaderSize) = extendedCode bytes := by
  rw [extendedCode, getD_take_maxHeaderSize bytes (by decide), extendedCode]

/-- So is that of the extension header. -/
theorem extensionCode_take : extensionCode (bytes.take maxHeaderSize) = extensionCode bytes := by
  rw [extensionCode, getD_take_maxHeaderSize bytes (by decide), extensionCode]

/-- Whether one of them is reserved is decided there. -/
theorem meetsReservedCode_take :
    MeetsReservedCode (bytes.take maxHeaderSize) ↔ MeetsReservedCode bytes := by
  simp only [MeetsReservedCode, preprocessorCode_take, extendedCode_take, extensionCode_take]

/-- Whether a header is in range is a matter of the 18 bytes the parser copies. -/
theorem headerInRange_take :
    HeaderInRange (bytes.take maxHeaderSize) ↔ HeaderInRange bytes := by
  have h9 := getD_take_maxHeaderSize bytes (show 9 < maxHeaderSize by decide)
  have h11 := getD_take_maxHeaderSize bytes (show 11 < maxHeaderSize by decide)
  have hvalid : ValidSizeCodes (bytes.take maxHeaderSize) ↔ ValidSizeCodes bytes := by
    simp only [ValidSizeCodes, preprocessorCode_take, extendedCode_take, extensionCode_take]
  constructor
  · rintro ⟨hinterval, hresolution, hcodes⟩
    exact ⟨h9 ▸ hinterval, h11 ▸ hresolution, hvalid.mp hcodes⟩
  · rintro ⟨hinterval, hresolution, hcodes⟩
    exact ⟨h9 ▸ hinterval, h11 ▸ hresolution, hvalid.mpr hcodes⟩

end Take

section Range

variable (g : IqzipCompressionHeader) (buffer : List U8)

/-- Widening keeps a block size positive. -/
theorem parsed_blockSize_pos_iff :
    (aecParamsOf (g.setFromBuffer buffer).decodedConfig).blockSize > 0
      ↔ (g.setFromBuffer buffer).decodeBlockSize ≠ 0 := by
  change ((g.setFromBuffer buffer).decodeBlockSize.setWidth 32 : U32) > 0 ↔ _
  bv_omega

/-- The interval is zero for one byte, where the addition wraps around. -/
theorem parsed_rsi_pos_iff :
    (aecParamsOf (g.setFromBuffer buffer).decodedConfig).rsi > 0 ↔ buffer.getD 9 0 ≠ 0xff := by
  have hrsi : (aecParamsOf (g.setFromBuffer buffer).decodedConfig).rsi
      = (buffer.getD 9 0 + 1).setWidth 32 := by
    rw [← parsed_interval g buffer]
    rfl
  rw [hrsi]
  bv_omega

/-- Five bits cannot exceed 31, so only zero is out of range. -/
theorem parsed_bitsPerSample_iff :
    (1 ≤ (aecParamsOf (g.setFromBuffer buffer).decodedConfig).bitsPerSample
        ∧ (aecParamsOf (g.setFromBuffer buffer).decodedConfig).bitsPerSample ≤ 32)
      ↔ buffer.getD 11 0 &&& 0x1f ≠ 0 := by
  have hbits : (aecParamsOf (g.setFromBuffer buffer).decodedConfig).bitsPerSample
      = (buffer.getD 11 0 &&& 0x1f).setWidth 32 := by
    rw [← parsed_sampleResolution g buffer]
    rfl
  rw [hbits]
  generalize buffer.getD 11 0 = b
  revert b
  decide

/-- The parameters of a call are in range exactly for the bytes of `HeaderInRange`. -/
theorem params_inRange_iff :
    let p := aecParamsOf (g.setFromBuffer buffer).decodedConfig
    (p.blockSize > 0 ∧ p.rsi > 0 ∧ (1 ≤ p.bitsPerSample ∧ p.bitsPerSample ≤ 32)
        ∧ ¬ MeetsReservedCode buffer)
      ↔ HeaderInRange buffer := by
  have hsize := parsed_blockSize_valid_iff g buffer
  intro p
  rw [parsed_blockSize_pos_iff, parsed_rsi_pos_iff, parsed_bitsPerSample_iff]
  constructor
  · rintro ⟨h1, h2, h3, h4⟩
    exact ⟨h2, h3, hsize.mp ⟨h1, h4⟩⟩
  · rintro ⟨h2, h3, h14⟩
    obtain ⟨h1, h4⟩ := hsize.mpr h14
    exact ⟨h1, h2, h3, h4⟩

end Range

/-- **Malformed headers and the coder.** For every file content and every decompressor object, the
coder is guarded if and only if the file is shorter than 18 bytes, a file does not open, or the
bytes of the header give parameters in range. -/
theorem guarded_iff (api : Aec σ) (c : DecompressorImpl σ) {fs : FileSystem} {fin : String}
    (fout : String) {bytes : List U8} (hfile : fs.content fin = some bytes) :
    c.Guarded api fs fin fout bytes
      ↔ bytes.length < 18 ∨ ¬ c.OpensBoth fs fin fout ∨ HeaderInRange bytes := by
  have hcall := c.coderCall_eq fout hfile
  by_cases hmade : maxHeaderSize ≤ bytes.length ∧ c.OpensBoth fs fin fout
  · -- the call is made, and its parameters decide
    rw [if_pos hmade] at hcall
    have hlen : ¬ bytes.length < 18 := Nat.not_lt.mpr hmade.1
    simp only [DecompressorImpl.Guarded, hcall, hlen, hmade.2, not_true, false_or]
    rw [← meetsReservedCode_take, ← headerInRange_take]
    exact params_inRange_iff c.dCcsdsCipHdr (bytes.take maxHeaderSize)
  · rw [if_neg hmade] at hcall
    have hright : bytes.length < 18 ∨ ¬ c.OpensBoth fs fin fout ∨ HeaderInRange bytes := by
      by_cases hlen : bytes.length < 18
      · exact Or.inl hlen
      · exact Or.inr (Or.inl fun hopen => hmade ⟨Nat.not_lt.mp hlen, hopen⟩)
    simp only [DecompressorImpl.Guarded, hcall, hright, iff_true]
    obtain ⟨e, hread, hinit⟩ | hret :=
      (c.decompressInit_of_coderCall_none api fs fin fout hcall).2
    · -- the file is there, so the parser can only raise
      obtain ⟨r, rfl⟩ := DecompressorImpl.raised_of_readHeader hfile hread
      exact Or.inl ⟨r, hinit⟩
    · exact Or.inr hret

/-- The guard holds for the header of the tool's default configuration. -/
theorem guarded_commandLine :
    (DecompressorImpl.construct (zeroStorage _)).Guarded (.ofFunctions id id)
      (fileOf ((zeroedHeader (commandLineConfig 1 1 1 0 8 1 64)).headerBytes ++ [0, 0])) "in.iqz"
      "out" ((zeroedHeader (commandLineConfig 1 1 1 0 8 1 64)).headerBytes ++ [0, 0]) :=
  (guarded_iff (.ofFunctions id id) (DecompressorImpl.construct (zeroStorage _)) "out"
    (FileSystem.content_put_self ..)).mpr (Or.inr (Or.inr (by decide)))

/-- **A malformed header reaches the coder.** Eighteen bytes `0xff` hold a reserved extension code
and the interval that wraps around: the coder is called with block size 0 and interval 0. -/
theorem guarded_allOnes :
    let c : DecompressorImpl (Given U8) := DecompressorImpl.construct (zeroStorage _)
    let bytes : List U8 := List.replicate 18 0xff
    (∃ p, c.coderCall (fileOf bytes) "in.iqz" "out" = some p ∧ p.blockSize = 0 ∧ p.rsi = 0)
      ∧ MeetsReservedCode bytes
      ∧ ¬ c.Guarded (.ofFunctions id id) (fileOf bytes) "in.iqz" "out" bytes := by
  intro c bytes
  refine ⟨⟨_, rfl, by decide, by decide⟩, by decide, ?_⟩
  intro h
  exact absurd h.1 (by decide)

end IQzip
