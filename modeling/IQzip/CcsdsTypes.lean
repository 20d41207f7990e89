import Mathlib.Tactic.Common
import Mathlib.Tactic.IntervalCases

/-! # Scalar types and the CCSDS enumerations

`uint8_t`, `uint16_t` and `uint32_t` are bit vectors, so assignment truncates and `|=`, `&`, `<<`
are the operations of the machine. The enumerations are those of `ccsds_types.h` that the header
encoders and decoders use, each with the number the source gives it. -/

/-- `a[i] = x`. The index is a `Fin`, so no assignment needs a bound. -/
def Vector.assign {α : Type} {n : Nat} (a : Vector α n) (i : Fin n) (x : α) : Vector α n :=
  a.set i x i.isLt

/-- An assignment changes its cell and no other. -/
@[simp] theorem Vector.get_assign {α : Type} {n : Nat} (a : Vector α n) (i j : Fin n) (x : α) :
    (a.assign i x).get j = if i = j then x else a.get j := by
  change (a.set i x i.isLt)[j] = if i = j then x else a[j]
  simp [Vector.getElem_set, Fin.ext_iff]

/-- Assigning what is there changes nothing. -/
@[simp] theorem Vector.assign_get_self {α : Type} {n : Nat} (a : Vector α n) (i : Fin n) :
    a.assign i (a.get i) = a := Vector.set_getElem_self i.isLt

namespace IQzip

/-- `uint8_t`. -/
abbrev U8 := BitVec 8

/-- `uint16_t`. -/
abbrev U16 := BitVec 16

/-- `uint32_t`, also `unsigned int`. -/
abbrev U32 := BitVec 32

/-! ## Byte arrays -/

-- the three array sizes, by name, so that an index literal is one term wherever it stands
instance neZeroTwo : NeZero 2 := ⟨by decide⟩

instance neZeroFour : NeZero 4 := ⟨by decide⟩

instance neZeroSix : NeZero 6 := ⟨by decide⟩

/-- An array of two bytes. -/
def bytes2 (a b : U8) : Vector U8 2 := #v[a, b]

/-- An array of four bytes. -/
def bytes4 (a b c d : U8) : Vector U8 4 := #v[a, b, c, d]

/-- An array of six bytes. -/
def bytes6 (a b c d e f : U8) : Vector U8 6 := #v[a, b, c, d, e, f]

section ByteArrays

variable {a b c d e f : U8}

/-- An array of two bytes is known by its cells. -/
theorem eq_bytes2 {v : Vector U8 2} (h0 : v.get 0 = a) (h1 : v.get 1 = b) : v = bytes2 a b := by
  subst h0 h1
  apply Vector.ext
  intro i hi
  interval_cases i <;> rfl

/-- An array of four bytes is known by its cells. -/
theorem eq_bytes4 {v : Vector U8 4} (h0 : v.get 0 = a) (h1 : v.get 1 = b) (h2 : v.get 2 = c)
    (h3 : v.get 3 = d) : v = bytes4 a b c d := by
  subst h0 h1 h2 h3
  apply Vector.ext
  intro i hi
  interval_cases i <;> rfl

/-- An array of six bytes is known by its cells. -/
theorem eq_bytes6 {v : Vector U8 6} (h0 : v.get 0 = a) (h1 : v.get 1 = b) (h2 : v.get 2 = c)
    (h3 : v.get 3 = d) (h4 : v.get 4 = e) (h5 : v.get 5 = f) : v = bytes6 a b c d e f := by
  subst h0 h1 h2 h3 h4 h5
  apply Vector.ext
  intro i hi
  interval_cases i <;> rfl

/-- The first of two bytes. -/
@[simp] theorem bytes2_get_zero : (bytes2 a b).get 0 = a := rfl

/-- The second. -/
@[simp] theorem bytes2_get_one : (bytes2 a b).get 1 = b := rfl

/-- Two bytes in order. -/
@[simp] theorem toList_bytes2 : (bytes2 a b).toList = [a, b] := rfl

/-- Four bytes in order. -/
@[simp] theorem toList_bytes4 : (bytes4 a b c d).toList = [a, b, c, d] := rfl

/-- Six bytes in order. -/
@[simp] theorem toList_bytes6 : (bytes6 a b c d e f).toList = [a, b, c, d, e, f] := rfl

end ByteArrays

/-- A `std::runtime_error` and its message. -/
structure RuntimeError where
  /-- What the exception says. -/
  what : String
  deriving DecidableEq, Repr

/-- The statement `std::runtime_error("…");` without `throw`: the exception object is built and
dropped, and control goes on with `a`. -/
def unthrown {α : Type} (_ : RuntimeError) (a : α) : α := a

/-- An exception that is not thrown does nothing. -/
@[simp] theorem unthrown_eq {α : Type} (e : RuntimeError) (a : α) : unthrown e a = a := rfl

/-- `PREPROCESSOR_STATUS`. -/
inductive PreprocessorStatus
  | absent
  | present
  deriving DecidableEq, Repr

/-- `(uint8_t)` of a `PREPROCESSOR_STATUS`. -/
def PreprocessorStatus.toU8 : PreprocessorStatus → U8
  | .absent => 0x0
  | .present => 0x1

/-- `PREPROCESSOR_PREDICTOR_TYPE`. -/
inductive PreprocessorPredictorType
  | bypass
  | unitDelay
  | applicationSpecific
  deriving DecidableEq, Repr

/-- `(uint8_t)` of a `PREPROCESSOR_PREDICTOR_TYPE`. -/
def PreprocessorPredictorType.toU8 : PreprocessorPredictorType → U8
  | .bypass => 0x0
  | .unitDelay => 0x1
  | .applicationSpecific => 0x7

/-- `PREPROCESSOR_MAPPER_TYPE`. -/
inductive PreprocessorMapperType
  | predictionError
  | applicationSpecific
  deriving DecidableEq, Repr

/-- `(uint8_t)` of a `PREPROCESSOR_MAPPER_TYPE`. -/
def PreprocessorMapperType.toU8 : PreprocessorMapperType → U8
  | .predictionError => 0x0
  | .applicationSpecific => 0x3

/-- `PREPROCESSOR_BLOCK_SIZE`, the block-size codes of the Preprocessor subfield. -/
inductive PreprocessorBlockSize
  | samples8
  | samples16
  | samples32or64
  | applicationSpecific
  deriving DecidableEq, Repr

/-- `(uint8_t)` of a `PREPROCESSOR_BLOCK_SIZE`. -/
def PreprocessorBlockSize.toU8 : PreprocessorBlockSize → U8
  | .samples8 => 0x0
  | .samples16 => 0x1
  | .samples32or64 => 0x2
  | .applicationSpecific => 0x3

/-- `PREPROCESSOR_DATA_SENSE`. -/
inductive PreprocessorDataSense
  | twoComplement
  | positive
  deriving DecidableEq, Repr

/-- `(uint8_t)` of a `PREPROCESSOR_DATA_SENSE`. -/
def PreprocessorDataSense.toU8 : PreprocessorDataSense → U8
  | .twoComplement => 0x0
  | .positive => 0x1

/-- `ENTROPY_CODER_RESOLUTION_RANGE`. -/
inductive EntropyCoderResolutionRange
  | spare
  | lessEqual8
  | lessEqual16
  | lessEqual32
  deriving DecidableEq, Repr

/-- `(uint8_t)` of an `ENTROPY_CODER_RESOLUTION_RANGE`. -/
def EntropyCoderResolutionRange.toU8 : EntropyCoderResolutionRange → U8
  | .spare => 0x0
  | .lessEqual8 => 0x1
  | .lessEqual16 => 0x2
  | .lessEqual32 => 0x3

/-- `EXTENDED_PARAMETERS_BLOCK_SIZE`, the block-size codes of the Extended Parameters subfield. -/
inductive ExtendedParametersBlockSize
  | samples8
  | samples16
  | samples32
  | samples64
  | applicationSpecific
  deriving DecidableEq, Repr

/-- `(uint8_t)` of an `EXTENDED_PARAMETERS_BLOCK_SIZE`. -/
def ExtendedParametersBlockSize.toU8 : ExtendedParametersBlockSize → U8
  | .samples8 => 0x0
  | .samples16 => 0x1
  | .samples32 => 0x2
  | .samples64 => 0x3
  | .applicationSpecific => 0xF

/-- `EXTENDED_PARAMETERS_RESTRICTED_CODES`. -/
inductive ExtendedParametersRestrictedCodes
  | basic
  | restricted
  deriving DecidableEq, Repr

/-- `(uint8_t)` of an `EXTENDED_PARAMETERS_RESTRICTED_CODES`. -/
def ExtendedParametersRestrictedCodes.toU8 : ExtendedParametersRestrictedCodes → U8
  | .basic => 0x0
  | .restricted => 0x1

/-- `SOURCE_CONFIGURATION_SUBFIELD_HEADER`, the two-bit tags of the subfields. -/
inductive SourceConfigurationSubfieldHeader
  | preprocessor
  | entropyCoder
  | instrumentConfiguration
  | extendedParameters
  deriving DecidableEq, Repr

/-- `(uint8_t)` of a `SOURCE_CONFIGURATION_SUBFIELD_HEADER`. -/
def SourceConfigurationSubfieldHeader.toU8 : SourceConfigurationSubfieldHeader → U8
  | .preprocessor => 0x0
  | .entropyCoder => 0x1
  | .instrumentConfiguration => 0x2
  | .extendedParameters => 0x3

/-- `BLOCK_SIZE`, the block-size codes of the IQzip extension header. -/
inductive BlockSize
  | samples128
  | samples256
  | samples512
  | samples1024
  | samples2048
  | samples4096
  | samples8192
  | samples16384
  | samples32768
  | samples65535
  deriving DecidableEq, Repr

/-- `(uint8_t)` of a `BLOCK_SIZE`; the enumerators count up from zero. -/
def BlockSize.toU8 : BlockSize → U8
  | .samples128 => 0x000
  | .samples256 => 1
  | .samples512 => 2
  | .samples1024 => 3
  | .samples2048 => 4
  | .samples4096 => 5
  | .samples8192 => 6
  | .samples16384 => 7
  | .samples32768 => 8
  | .samples65535 => 9

/-- `ENDIANNESS`. -/
inductive Endianness
  | big
  | little
  deriving DecidableEq, Repr

/-- `(uint8_t)` of an `ENDIANNESS`. -/
def Endianness.toU8 : Endianness → U8
  | .big => 0x0
  | .little => 1

end IQzip
