import IQzip.HeaderShape
import IQzip.Library.LastWrite

/-! # The setters of the combined header

`iqzip_compression_header` holds seven values twice, as members of its own and in the bytes of the
primary header it wraps. Its setters write the members and its getters read the bytes, so what is
set is not what is got; of the three extension setters the one of the reference sample interval
stores one less than its getter is asked for. `setters_takeEffect_iff` says for which sequences of
calls every getter returns the last value set all the same. -/

namespace IQzip

open Library

/-- The fields of the combined header that have a setter. -/
inductive HeaderField
  | version
  | type
  | secondaryHeaderFlag
  | applicationProcessIdentifier
  | sequenceFlags
  | packetSequenceCount
  | packetDataLength
  | iqzipHeaderBlockSize
  | iqzipHeaderEndianness
  | iqzipHeaderReferenceSampleInterval
  deriving DecidableEq

/-- A call of a setter of `iqzip_compression_header`; the block size is a `size_t`. -/
inductive HeaderCall
  | version (version : U8)
  | type (type : U8)
  | secondaryHeaderFlag (flag : U8)
  | applicationProcessIdentifier (apid : U16)
  | sequenceFlags (flags : U8)
  | packetSequenceCount (count : U16)
  | packetDataLength (length : U16)
  | iqzipHeaderBlockSize (size : Nat)
  | iqzipHeaderEndianness (endianness : U8)
  | iqzipHeaderReferenceSampleInterval (interval : U16)
  deriving DecidableEq

namespace HeaderField

/-- The number the getter of a field returns. -/
def decode (f : HeaderField) (h : IqzipCompressionHeader) : Nat :=
  match f with
  | .version => h.decodeVersion.toNat
  | .type => h.decodeType.toNat
  | .secondaryHeaderFlag => h.decodeSecondaryHeaderFlag.toNat
  | .applicationProcessIdentifier => h.decodeApplicationProcessIdentifier.toNat
  | .sequenceFlags => h.decodeSequenceFlags.toNat
  | .packetSequenceCount => h.decodePacketSequenceCount.toNat
  | .packetDataLength => h.decodePacketDataLength.toNat
  | .iqzipHeaderBlockSize => h.decodeIqzipHeaderBlockSize.toNat
  | .iqzipHeaderEndianness => h.decodeIqzipHeaderEndianess.toNat
  | .iqzipHeaderReferenceSampleInterval => h.decodeIqzipHeaderReferenceSampleInterval.toNat

/-- The fields of the primary header, which the wrapper also keeps as members. -/
def Cached : HeaderField → Prop
  | .iqzipHeaderBlockSize => False
  | .iqzipHeaderEndianness => False
  | .iqzipHeaderReferenceSampleInterval => False
  | _ => True

end HeaderField

namespace HeaderCall

/-- The field the call sets. -/
def field : HeaderCall → HeaderField
  | .version _ => .version
  | .type _ => .type
  | .secondaryHeaderFlag _ => .secondaryHeaderFlag
  | .applicationProcessIdentifier _ => .applicationProcessIdentifier
  | .sequenceFlags _ => .sequenceFlags
  | .packetSequenceCount _ => .packetSequenceCount
  | .packetDataLength _ => .packetDataLength
  | .iqzipHeaderBlockSize _ => .iqzipHeaderBlockSize
  | .iqzipHeaderEndianness _ => .iqzipHeaderEndianness
  | .iqzipHeaderReferenceSampleInterval _ => .iqzipHeaderReferenceSampleInterval

/-- The value the call sets. -/
def value : HeaderCall → Nat
  | .version v => v.toNat
  | .type v => v.toNat
  | .secondaryHeaderFlag v => v.toNat
  | .applicationProcessIdentifier v => v.toNat
  | .sequenceFlags v => v.toNat
  | .packetSequenceCount v => v.toNat
  | .packetDataLength v => v.toNat
  | .iqzipHeaderBlockSize v => v
  | .iqzipHeaderEndianness v => v.toNat
  | .iqzipHeaderReferenceSampleInterval v => v.toNat

/-- The header after the call. -/
def run (c : HeaderCall) (h : IqzipCompressionHeader) : IqzipCompressionHeader :=
  match c with
  | .version v => h.encodeVersion v
  | .type v => h.encodeType v
  | .secondaryHeaderFlag v => h.encodeSecondaryHeaderFlag v
  | .applicationProcessIdentifier v => h.encodeApplicationProcessIdentifier v
  | .sequenceFlags v => h.encodeSequenceFlags v
  | .packetSequenceCount v => h.encodePacketSequenceCount v
  | .packetDataLength v => h.encodePacketDataLength v
  | .iqzipHeaderBlockSize v => h.encodeIqzipHeaderBlockSize v
  | .iqzipHeaderEndianness v => h.encodeIqzipHeaderEndianness v
  | .iqzipHeaderReferenceSampleInterval v => h.encodeIqzipHeaderReferenceSampleInterval v

/-- The header after the calls in order. -/
def runAll (calls : List HeaderCall) (h : IqzipCompressionHeader) : IqzipCompressionHeader :=
  calls.foldl (fun h c => c.run h) h

/-- The value fits the field: its width, the sizes the extension has a code for, and the intervals
its eleven bits hold. -/
def InRange : HeaderCall → Prop
  | .version v => v < 8
  | .type v => v < 2
  | .secondaryHeaderFlag v => v < 2
  | .applicationProcessIdentifier v => v < 2048
  | .sequenceFlags v => v < 4
  | .packetSequenceCount v => v < 16384
  | .packetDataLength _ => True
  | .iqzipHeaderBlockSize v => ∃ k, 7 ≤ k ∧ k ≤ 15 ∧ v = 2 ^ k
  | .iqzipHeaderEndianness v => v = 0 ∨ v = 1
  | .iqzipHeaderReferenceSampleInterval v => 1 ≤ v ∧ v ≤ 2048

/-- The value the call asks the getter of `f` to return. -/
def asked (f : HeaderField) (c : HeaderCall) : Option Nat :=
  if c.field = f then some c.value else none

/-- The value the call leaves for the getter of `f`: a member that no getter reads leaves none, and
the interval is stored without the one that its getter does not add. -/
def put (f : HeaderField) : HeaderCall → Option Nat
  | .iqzipHeaderBlockSize v => if .iqzipHeaderBlockSize = f then some v else none
  | .iqzipHeaderEndianness v => if .iqzipHeaderEndianness = f then some v.toNat else none
  | .iqzipHeaderReferenceSampleInterval v =>
    if .iqzipHeaderReferenceSampleInterval = f then some (v.toNat - 1) else none
  | _ => none

section Run

variable (h : IqzipCompressionHeader)

/-- The block size a setter stored is decoded. -/
theorem decode_blockSize {size : Nat} (hsize : (iqzipHeaderBlockSize size).InRange) :
    (h.encodeIqzipHeaderBlockSize size).decodeIqzipHeaderBlockSize.toNat = size := by
  obtain ⟨k, hlo, hhi, rfl⟩ := hsize
  have hpow : 2 ^ k ≤ 2 ^ 15 := Nat.pow_le_pow_right (by decide) hhi
  have htoNat : (BitVec.ofNat 16 (2 ^ k)).toNat = 2 ^ k := by
    rw [BitVec.toNat_ofNat, Nat.mod_eq_of_lt (by omega)]
  have hcode : (h.encodeIqzipHeaderBlockSize (2 ^ k)).dIqzipHeader.blockSize
      = IqzipCompressionHeader.iqzipBlockSizeCode (BitVec.ofNat 16 (2 ^ k)).toNat := by
    rw [h.encodeIqzipHeaderBlockSize_eq (by omega), htoNat]
  rw [decodeIqzipHeaderBlockSize_of_code hcode, htoNat]
  interval_cases k <;> rfl

/-- An endianness that a setter accepted is decoded. -/
theorem decode_endianness {endianness : U8} (he : endianness = 0 ∨ endianness = 1) :
    (h.encodeIqzipHeaderEndianness endianness).decodeIqzipHeaderEndianess.toNat
      = endianness.toNat := by
  rcases he with rfl | rfl <;> rfl

/-- An interval of at most 2048 comes back one smaller. -/
theorem decode_referenceSampleInterval {interval : U16} (hi : 1 ≤ interval ∧ interval ≤ 2048) :
    (h.encodeIqzipHeaderReferenceSampleInterval
        interval).decodeIqzipHeaderReferenceSampleInterval.toNat = interval.toNat - 1 := by
  have hlo : 1 ≤ interval.toNat := hi.1
  have hhi : interval.toNat ≤ 2048 := hi.2
  have hrem : ((interval.toNat : Int) - 1).tmod 2048 = ((interval.toNat - 1 : Nat) : Int) := by
    rw [Int.tmod_eq_of_lt (by omega) (by omega)]
    omega
  simp only [IqzipCompressionHeader.encodeIqzipHeaderReferenceSampleInterval,
    IqzipCompressionHeader.decodeIqzipHeaderReferenceSampleInterval, hrem]
  rw [BitVec.toNat_setWidth, BitVec.ofInt_natCast, BitVec.toNat_ofNat]
  omega

/-- **One call**: what it puts is read, and nothing else changes. -/
theorem decode_run {c : HeaderCall} (hc : c.InRange) (f : HeaderField) :
    f.decode (c.run h) = (c.put f).getD (f.decode h) := by
  cases c with
  | iqzipHeaderBlockSize v =>
    have hv : v ≤ 65535 := by
      obtain ⟨k, -, hhi, rfl⟩ := hc
      have hpow : 2 ^ k ≤ 2 ^ 15 := Nat.pow_le_pow_right (by decide) hhi
      omega
    cases f with
    | iqzipHeaderBlockSize => exact decode_blockSize h hc
    | _ => rw [run, h.encodeIqzipHeaderBlockSize_eq hv]; rfl
  | iqzipHeaderEndianness v =>
    cases f with
    | iqzipHeaderEndianness => exact decode_endianness h hc
    | _ => rw [run, h.encodeIqzipHeaderEndianness_eq hc]; rfl
  | iqzipHeaderReferenceSampleInterval v =>
    cases f with
    | iqzipHeaderReferenceSampleInterval => exact decode_referenceSampleInterval h hc
    | _ => rfl
  -- the others assign a member that no getter reads
  | _ => cases f <;> rfl

/-- **A sequence of calls**: the getter of a field returns what the last call put for it, else what
it returned before. -/
theorem decode_runAll {calls : List HeaderCall} (hcalls : ∀ c ∈ calls, c.InRange)
    (f : HeaderField) :
    f.decode (runAll calls h) = (lastSome (put f) calls).getD (f.decode h) := by
  refine read_foldl ?_ h
  intro c hc h
  exact decode_run h (hcalls c hc) f

end Run

section Last

variable {f : HeaderField}

/-- No call puts a value for the getter of a field of the primary header. -/
theorem put_of_cached (hf : f.Cached) (c : HeaderCall) : c.put f = none := by
  cases c <;> cases f <;> first | rfl | exact hf.elim

/-- The block size and the endianness are put as they are asked for. -/
theorem put_eq_asked (hf : f = .iqzipHeaderBlockSize ∨ f = .iqzipHeaderEndianness)
    (c : HeaderCall) : c.put f = c.asked f := by
  rcases hf with rfl | rfl <;> cases c <;> rfl

/-- The interval is put one too small. -/
theorem put_interval (c : HeaderCall) :
    c.put .iqzipHeaderReferenceSampleInterval
      = (c.asked .iqzipHeaderReferenceSampleInterval).map fun x => x - 1 := by
  cases c <;> rfl

/-- An interval that was asked for is in range. -/
theorem asked_interval_pos {c : HeaderCall} (hc : c.InRange) {x : Nat}
    (hx : c.asked .iqzipHeaderReferenceSampleInterval = some x) : 1 ≤ x := by
  cases c with
  | iqzipHeaderReferenceSampleInterval v =>
    cases hx
    exact hc.1
  | _ => cases hx

theorem field_of_asked {c : HeaderCall} {x : Nat} (hx : c.asked f = some x) : c.field = f := by
  unfold asked at hx
  split at hx
  · assumption
  · cases hx

end Last

section LastSet

variable {calls : List HeaderCall} (hcalls : ∀ c ∈ calls, c.InRange) (h : IqzipCompressionHeader)

include hcalls

/-- The getters of the primary header return what they returned before. -/
theorem decode_runAll_of_cached {f : HeaderField} (hf : f.Cached) :
    f.decode (runAll calls h) = f.decode h := by
  rw [decode_runAll h hcalls, lastSome_eq_none_iff.mpr fun c _ => put_of_cached hf c]
  rfl

/-- The block size and the endianness are read as they were last set. -/
theorem decode_runAll_of_put {f : HeaderField} {x : Nat}
    (hf : f = .iqzipHeaderBlockSize ∨ f = .iqzipHeaderEndianness)
    (hlast : lastSome (asked f) calls = some x) : f.decode (runAll calls h) = x := by
  rw [decode_runAll h hcalls, lastSome_congr fun c _ => put_eq_asked hf c, hlast]
  rfl

/-- The interval is read one smaller than it was last set. -/
theorem decode_runAll_interval {x : Nat}
    (hlast : lastSome (asked .iqzipHeaderReferenceSampleInterval) calls = some x) :
    1 ≤ x ∧ HeaderField.iqzipHeaderReferenceSampleInterval.decode (runAll calls h) = x - 1 := by
  constructor
  · obtain ⟨c, hc, hx⟩ := exists_mem_of_lastSome hlast
    exact asked_interval_pos (hcalls c hc) hx
  · rw [decode_runAll h hcalls, lastSome_congr fun c _ => put_interval c, lastSome_map, hlast]
    rfl

end LastSet

/-- **When every setter takes effect.** From every state of the header, those its constructor
leaves among them, and for every sequence of calls with arguments in range: each getter of a field
that was set returns the last value set if and only if the sequence does not set the reference
sample interval, and the last value set for each field of the primary header is the one its getter
returned before the sequence. -/
theorem setters_takeEffect_iff {calls : List HeaderCall} (hcalls : ∀ c ∈ calls, c.InRange)
    (h : IqzipCompressionHeader) :
    (∀ f x, lastSome (asked f) calls = some x → f.decode (runAll calls h) = x)
      ↔ (∀ c ∈ calls, c.field ≠ .iqzipHeaderReferenceSampleInterval)
        ∧ ∀ f x, f.Cached → lastSome (asked f) calls = some x → f.decode h = x := by
  constructor
  · intro heffect
    constructor
    · intro c hc hfield
      -- some interval is the last one set, and it comes back one smaller
      cases hlast : lastSome (asked .iqzipHeaderReferenceSampleInterval) calls with
      | none =>
        have hnone := lastSome_eq_none_iff.mp hlast c hc
        rw [asked, if_pos hfield] at hnone
        cases hnone
      | some x =>
        obtain ⟨hpos, hdecode⟩ := decode_runAll_interval hcalls h hlast
        rw [heffect _ _ hlast] at hdecode
        omega
    · intro f x hf hlast
      rw [← heffect f x hlast, decode_runAll_of_cached hcalls h hf]
  · rintro ⟨hinterval, hcached⟩ f x hlast
    by_cases hf : f.Cached
    · rw [decode_runAll_of_cached hcalls h hf]
      exact hcached f x hf hlast
    cases f with
    | iqzipHeaderBlockSize => exact decode_runAll_of_put hcalls h (.inl rfl) hlast
    | iqzipHeaderEndianness => exact decode_runAll_of_put hcalls h (.inr rfl) hlast
    | iqzipHeaderReferenceSampleInterval =>
      obtain ⟨c, hc, hx⟩ := exists_mem_of_lastSome hlast
      exact absurd (field_of_asked hx) (hinterval c hc)
    | _ => exact absurd trivial hf

/-- On the header of the command-line tool, the block size set twice and the version set to what
it is. -/
theorem setters_takeEffect_blockSize :
    let calls := [HeaderCall.iqzipHeaderBlockSize 256, .version 0, .iqzipHeaderBlockSize 4096]
    HeaderField.iqzipHeaderBlockSize.decode
          (runAll calls (zeroedHeader (commandLineConfig 1 1 1 0 8 1 64))) = 4096
      ∧ HeaderField.version.decode
          (runAll calls (zeroedHeader (commandLineConfig 1 1 1 0 8 1 64))) = 0 := by
  intro calls
  have hcalls : ∀ c ∈ calls, c.InRange := by
    intro c hc
    rcases List.mem_cons.mp hc with rfl | hc
    · exact ⟨8, by decide, by decide, rfl⟩
    rcases List.mem_cons.mp hc with rfl | hc
    · exact show (0 : U8) < 8 by decide
    rcases List.mem_cons.mp hc with rfl | hc
    · exact ⟨12, by decide, by decide, rfl⟩
    cases hc
  have heffect := (setters_takeEffect_iff hcalls
    (zeroedHeader (commandLineConfig 1 1 1 0 8 1 64))).mpr ⟨by decide, by
      intro f x hf hlast
      cases f with
      | version =>
        cases hlast
        decide
      | _ => first | exact hf.elim | cases hlast⟩
  exact ⟨heffect _ _ rfl, heffect _ _ rfl⟩

/-- **Setting the version is not seen**, and an interval of 5 is read as 4. -/
theorem setters_lost :
    (commandLineConfig 1 1 1 0 8 1 64).Legal
      ∧ lastSome (asked .version) [.version 3] = some 3
      ∧ HeaderField.version.decode (runAll [.version 3]
          (zeroedHeader (commandLineConfig 1 1 1 0 8 1 64))) = 0
      ∧ HeaderField.iqzipHeaderReferenceSampleInterval.decode
          (runAll [.iqzipHeaderReferenceSampleInterval 5]
            (zeroedHeader (commandLineConfig 1 1 1 0 8 1 64))) = 4 := by
  decide

end HeaderCall

end IQzip
