import IQzip.Aec
import IQzip.CompressionHeader

/-! # The base class of compressor and decompressor

`iqzip_impl` holds the header, the coder's stream, the two file streams and the scalar members that
`init_aec_stream` turns into coder parameters. `compress_fin` and `decompress_fin` do the same work
on it. -/

namespace IQzip

open Library

variable {σ : Type}

/-- What a member function that runs to its end leaves: the returned status, the object and the
files. -/
abbrev Outcome (γ : Type) : Type := Except Abort (Int × γ × FileSystem)

/-- `iqzip_impl`. The scalar members are together in `config`. -/
structure IqzipImpl (σ : Type) where
  dCcsdsCipHdr : IqzipCompressionHeader
  dStrm : AecStream σ
  outputStream : OutputStream
  inputStream : InputStream
  config : Config

/-- The `flags` word: each option is shifted to the bit of its flag, and two of them are
inverted. -/
def flagsOf (cfg : Config) : U32 :=
  let flags : U32 := 0
  let flags := flags ||| aecData3Byte
  let flags := flags ||| aecNotEnforce
  -- a set data-sense bit means unsigned samples, a set endianness bit little endian
  let flags := flags ||| (~~~(cfg.dataSense.setWidth 32 <<< 0) &&& aecDataSigned)
  let flags := flags ||| (~~~(cfg.endianness.setWidth 32 <<< 2) &&& aecDataMsb)
  -- these two are not masked: only the values 0 and 1 stay on their own bit
  let flags := flags ||| cfg.preprocessorStatus.setWidth 32 <<< 3
  flags ||| cfg.restrictedCodes.setWidth 32 <<< 4

/-- The coder parameters of a configuration. -/
def aecParamsOf (cfg : Config) : AecParams :=
  { bitsPerSample := cfg.sampleResolution.setWidth 32
    blockSize := cfg.blockSize.setWidth 32
    rsi := cfg.referenceSampleInterval.setWidth 32
    flags := flagsOf cfg }

/-- The stream that `init_aec_stream` leaves: parameters from the members, everything else
cleared. -/
def freshStream (cfg : Config) : AecStream σ :=
  { toAecParams := aecParamsOf cfg
    nextIn := []
    availIn := 0
    totalIn := 0
    nextOut := 0
    availOut := chunk
    totalOut := 0
    state := none }

/-- The stream after a coder's init function left `state`. -/
def initStream (cfg : Config) (state : Option σ) : AecStream σ :=
  { (freshStream cfg : AecStream σ) with state := state }

namespace IqzipImpl

/-- `init_aec_stream`: it assigns every member of `d_strm`. -/
def initAecStream (c : IqzipImpl σ) : IqzipImpl σ := { c with dStrm := freshStream c.config }

/-- The object after `init_aec_stream` and `aec_encode_init` or `aec_decode_init`. -/
def initCoder (api : Aec σ) (c : IqzipImpl σ) : IqzipImpl σ :=
  let c := c.initAecStream
  { c with dStrm := { c.dStrm with state := (api.init c.dStrm.toAecParams).2 } }

/-- The object whose pointers are forgotten and whose files are closed. -/
def ended (c : IqzipImpl σ) : IqzipImpl σ :=
  { c with
    dStrm := { c.dStrm with nextIn := [], nextOut := 0, state := none }
    inputStream := c.inputStream.close
    outputStream := c.outputStream.close }

/-- `compress_fin` and `decompress_fin`: end the coder, forget the pointers, close the files. When
the coder refuses to end, the files stay open. -/
def fin (api : Aec σ) (c : IqzipImpl σ) (fs : FileSystem) : Outcome (IqzipImpl σ) :=
  match api.finish c.dStrm with
  | .error e => .error e
  | .ok (status, strm) =>
    -- the early return: neither stream is closed
    if status ≠ aecOk then .ok (status, { c with dStrm := strm }, fs)
    else .ok (0, { c with dStrm := strm }.ended, fs)

/-- With a coder state the function returns, and writes nothing; it returns 0 when the coder ends
well. -/
theorem fin_of_state (api : Aec σ) {c : IqzipImpl σ} {s : σ} (fs : FileSystem)
    (hs : c.dStrm.state = some s) :
    ∃ status c', c.fin api fs = .ok (status, c', fs) ∧ (api.fin s = aecOk → status = 0) := by
  unfold fin Aec.finish
  simp only [hs]
  split_ifs with herr
  · exact ⟨_, _, rfl, fun hok => absurd hok herr⟩
  · exact ⟨_, _, rfl, fun _ => rfl⟩

end IqzipImpl

end IQzip
