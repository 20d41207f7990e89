import IQzip.Machine
import IQzip.Library.Eager

/-! # The libaec stream

`aec_stream` as the library uses it, and the calls through it. libaec itself is a parameter: `Aec`
holds the three functions of one direction (`aec_encode_init`, `aec_encode`, `aec_encode_end`, or
their decoding counterparts), and `Aec.code` is a call with its pointers and counters. -/

namespace IQzip

open Library

/-- `CHUNK`, the size of the file and output buffers. -/
def chunk : Nat := 10485760

/-- Its value. -/
theorem chunk_eq : chunk = 10485760 := rfl

/-- `STREAM_CHUNK`, the block the streaming functions collect. -/
def streamChunk : Nat := 32768

/-- Its value. -/
theorem streamChunk_eq : streamChunk = 32768 := rfl

/-- `AEC_OK`. -/
def aecOk : Int := 0

/-- `AEC_DATA_SIGNED`. -/
def aecDataSigned : U32 := 1

/-- `AEC_DATA_3BYTE`. -/
def aecData3Byte : U32 := 2

/-- `AEC_DATA_MSB`. -/
def aecDataMsb : U32 := 4

/-- `AEC_DATA_PREPROCESS`. -/
def aecDataPreprocess : U32 := 8

/-- `AEC_RESTRICTED`. -/
def aecRestricted : U32 := 16

/-- `AEC_NOT_ENFORCE`. -/
def aecNotEnforce : U32 := 64

/-- The parameters of an `aec_stream`, all `unsigned int`. -/
structure AecParams where
  bitsPerSample : U32
  blockSize : U32
  rsi : U32
  flags : U32
  deriving DecidableEq

/-- The bytes of one sample in libaec's buffers, with `AEC_DATA_3BYTE` set. -/
def AecParams.bytesPerSample (p : AecParams) : Nat :=
  if p.bitsPerSample.toNat ≤ 8 then 1
  else if p.bitsPerSample.toNat ≤ 16 then 2
  else if p.bitsPerSample.toNat ≤ 24 then 3
  else 4

/-- The functions of libaec for one direction. `init` returns its status and the `state` member it
leaves; `fin` returns the status of the end function. -/
structure Aec (σ : Type) where
  init : AecParams → Int × Option σ
  coder : Coder σ U8 U8
  fin : σ → Int

/-- `aec_stream`. `next_in` is the list of the bytes from the pointer to the end of its object,
`next_out` the offset into the output buffer, and a null or freed `state` is `none`. -/
structure AecStream (σ : Type) extends AecParams where
  nextIn : List U8
  availIn : Nat
  totalIn : Nat
  nextOut : Nat
  availOut : Nat
  totalOut : Nat
  state : Option σ

variable {σ : Type}

namespace AecStream

/-- What one call of the coder may read. -/
def offered (strm : AecStream σ) : List U8 := strm.nextIn.take strm.availIn

/-- The stream after a call: pointers move by what was used and produced, `total_out` by what the
call counted. Nothing reads `total_in`. -/
def after (strm : AecStream σ) (a : Answer σ U8) : AecStream σ :=
  { strm with
    nextIn := strm.nextIn.drop a.consumed
    availIn := strm.availIn - a.consumed
    totalIn := sizeAdd strm.totalIn a.consumed
    nextOut := strm.nextOut + a.produced.length
    availOut := strm.availOut - a.produced.length
    totalOut := sizeAdd strm.totalOut a.counted
    state := some a.next }

end AecStream

namespace Aec

variable (api : Aec σ)

/-- `aec_encode` or `aec_decode` on a stream whose `next_out` points into `out`. -/
def code (mode : FlushMode) (strm : AecStream σ) (out : Buffer) :
    Except Abort (Int × AecStream σ × Buffer) :=
  match strm.state with
  | none => .error .nullCoderState
  | some s =>
    -- the coder may read all of `avail_in`, so all of it has to be inside the object
    if strm.nextIn.length < strm.availIn then .error .outOfBounds
    else
      let a := api.coder.call s mode strm.offered strm.availOut
      -- bytes produced behind the end of the output buffer
      if out.size < strm.nextOut + a.produced.length then .error .outOfBounds
      else .ok (a.status, strm.after a, out.splice strm.nextOut a.produced)

/-- `aec_encode_end` or `aec_decode_end`: the state is freed. -/
def finish (strm : AecStream σ) : Except Abort (Int × AecStream σ) :=
  match strm.state with
  | none => .error .nullCoderState
  | some s => .ok (api.fin s, { strm with state := none })

/-- The functions of libaec with a ledger kept of every call. -/
def recording : Aec (Coder.Ledger σ U8 U8) where
  init p := ((api.init p).1, (api.init p).2.map Coder.Ledger.start)
  coder := api.coder.recording
  fin l := api.fin l.state

/-- The functions of libaec around an eager coder, none of which fails. -/
def ofFunctions (now all : List U8 → List U8) : Aec (Given U8) where
  init _ := (aecOk, some Given.start)
  coder := Coder.eager now all
  fin _ := aecOk

/-- libaec around a coder whose first call fails: it makes nothing, and counts `claimed` of its
space. The calls behind it read everything and make a byte each. -/
def failingOnce (claimed : Nat → Nat) : Aec Bool where
  init _ := (aecOk, some false)
  coder :=
    { call := fun failed _ xs space =>
        bif failed then
          { status := aecOk, consumed := xs.length, produced := [0].take space, next := true }
        else { status := -1, consumed := 0, produced := [], next := true, counted := claimed space }
      consumed_le := by
        intro failed _ xs _
        cases failed with
        | false => exact Nat.zero_le _
        | true => exact Nat.le_refl _
      produced_le := by
        intro failed _ _ space
        cases failed with
        | false => exact Nat.zero_le _
        | true => exact List.length_take_le _ _
      counted_eq := by
        intro failed _ _ _ hok
        cases failed with
        | false => cases hok
        | true => rfl }
  fin _ := aecOk

/-- A failing call produces nothing and counts nothing. -/
def FailsSilently : Prop :=
  ∀ ⦃s xs⦄, (api.coder.call s .noFlush xs chunk).status ≠ 0 →
    (api.coder.call s .noFlush xs chunk).produced = []
      ∧ (api.coder.call s .noFlush xs chunk).counted = 0

/-- A call that counts nothing fails silently. -/
theorem failsSilently_failingOnce : (failingOnce fun _ => 0).FailsSilently := by
  intro failed xs herr
  cases failed with
  | false => exact ⟨rfl, rfl⟩
  | true => exact absurd rfl herr

/-- Every call counts what it produces, also one that fails. -/
def CountsMade : Prop :=
  ∀ s mode xs space, (api.coder.call s mode xs space).counted
    = (api.coder.call s mode xs space).produced.length

/-- An eager coder does. -/
theorem countsMade_ofFunctions (now all : List U8 → List U8) : (ofFunctions now all).CountsMade :=
  fun _ _ _ _ => rfl

variable {api} {strm : AecStream σ} {out : Buffer} {s : σ}

/-- **A call with room.** When the offered bytes are there and the output space lies inside the
buffer, the call is that of the coder. -/
theorem code_eq_ok (mode : FlushMode) (hs : strm.state = some s)
    (hin : strm.availIn ≤ strm.nextIn.length) (hout : strm.nextOut + strm.availOut ≤ out.size) :
    api.code mode strm out
      = .ok ((api.coder.call s mode strm.offered strm.availOut).status,
          strm.after (api.coder.call s mode strm.offered strm.availOut),
          out.splice strm.nextOut (api.coder.call s mode strm.offered strm.availOut).produced) := by
  have hmade := api.coder.produced_le s mode strm.offered strm.availOut
  simp only [code, hs]
  rw [if_neg (by omega), if_neg (by omega)]

/-- What a call that returns reports is the status of the coder. -/
theorem status_of_code {mode : FlushMode} {status : Int} {strm' : AecStream σ} {out' : Buffer}
    (h : api.code mode strm out = .ok (status, strm', out')) :
    ∃ s, status = (api.coder.call s mode strm.offered strm.availOut).status := by
  unfold code at h
  split at h
  · cases h
  · next s _ =>
    split at h
    · cases h
    · dsimp only at h
      split at h
      · cases h
      · cases h
        exact ⟨s, rfl⟩

/-- Without a coder state a call aborts. -/
theorem code_of_state_none (mode : FlushMode) (hs : strm.state = none) :
    api.code mode strm out = .error .nullCoderState := by
  simp only [code, hs]

end Aec

end IQzip
