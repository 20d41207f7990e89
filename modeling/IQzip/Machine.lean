import IQzip.CcsdsTypes

/-! # The machine under the C++ code

What the functions of the library rest on and the language supplies: the conversions between
`size_t`, `int` and `long int` (all 64-bit but `int`), heap buffers with their bounds, files, and
the two file streams. Reading or writing outside a buffer is an explicit outcome, so a run stops
there, with one exception. `parse_header_from_file` copies the source configuration field, 24 bytes,
from offset 10 of a buffer of 18. The bytes from behind its end go to `instrument_config`, which
nothing reads; the copy is taken to go on (`IqzipCompressionHeader.setFromBuffer`).

What a file holds here is its logical content. A write reaches it at once, whereas the bytes of a
stream that is still open may wait in its buffer. `std::cout` is left out. -/

namespace IQzip

/-! ## Integers -/

/-- The number of values of `size_t`. -/
def sizeModulus : Nat := 2 ^ 64

/-- `size_t` subtraction: it wraps below zero. -/
def sizeSub (a b : Nat) : Nat := (a + (sizeModulus - b % sizeModulus)) % sizeModulus

/-- `size_t` addition. -/
def sizeAdd (a b : Nat) : Nat := (a + b) % sizeModulus

/-- Conversion of a `size_t` to `int`: the low 32 bits, read as a signed number. -/
def intOfSize (n : Nat) : Int := (n : Int).bmod (2 ^ 32)

/-- Conversion of a `size_t` to `long int`. -/
def longOfSize (n : Nat) : Int := (n : Int).bmod (2 ^ 64)

/-- Conversion of a signed integer to `size_t`: sign extension, then the value modulo `2^64`. -/
def sizeOfInt (i : Int) : Nat := (i % (sizeModulus : Int)).toNat

/-- The lower half of `size_t` is not negative as a `long int`. -/
theorem longOfSize_nonneg {n : Nat} (hn : n < 2 ^ 63) : 0 ≤ longOfSize n := by
  unfold longOfSize
  rw [Int.bmod_def]
  omega

/-- The upper half is. -/
theorem longOfSize_neg {n : Nat} (hlo : 2 ^ 63 ≤ n) (hhi : n < 2 ^ 64) : longOfSize n < 0 := by
  unfold longOfSize
  rw [Int.bmod_def]
  omega

/-- A `size_t` difference that does not go below zero is the true one. -/
theorem sizeSub_of_le {a b : Nat} (hba : b ≤ a) (ha : a < sizeModulus) : sizeSub a b = a - b := by
  unfold sizeSub sizeModulus at *
  omega

/-- Zero is zero. -/
@[simp] theorem intOfSize_zero : intOfSize 0 = 0 := Int.zero_bmod

/-- Below `2^31` the round trip through `int` is exact. -/
theorem sizeOfInt_intOfSize {n : Nat} (hn : n < 2 ^ 31) : sizeOfInt (intOfSize n) = n := by
  unfold sizeOfInt intOfSize sizeModulus
  rw [Int.bmod_def]
  omega

/-- From `2^31` to `2^32` the `int` copy is negative, and sign extension makes it huge. -/
theorem sizeOfInt_intOfSize_of_ge {n : Nat} (hlo : 2 ^ 31 ≤ n) (hhi : n < 2 ^ 32) :
    sizeOfInt (intOfSize n) = n + (2 ^ 64 - 2 ^ 32) := by
  unfold sizeOfInt intOfSize sizeModulus
  rw [Int.bmod_def]
  omega

/-! ## Abnormal ends -/

/-- How a function ends other than by returning. -/
inductive Abort
  /-- An exception leaves the function. -/
  | raised (e : RuntimeError)
  /-- `fwrite`, `fread` or `fclose` on the null pointer of a failed `fopen`. -/
  | nullFile
  /-- A coder call on a stream whose `state` is null. -/
  | nullCoderState
  /-- A copy or a write that leaves the buffer it is given. -/
  | outOfBounds
  deriving DecidableEq, Repr

/-! ## Heap buffers -/

/-- The memory of `new char[size]`: a size, and a byte for every index. What the cells hold before
they are written is arbitrary. -/
structure Buffer where
  size : Nat
  cell : Nat → U8

namespace Buffer

/-- The `n` bytes from offset `off`. -/
def load (b : Buffer) (off n : Nat) : List U8 := (List.range n).map fun i => b.cell (off + i)

/-- The buffer after the bytes `xs` are stored from offset `off`. -/
def splice (b : Buffer) (off : Nat) (xs : List U8) : Buffer :=
  { b with cell := fun i => if off ≤ i then xs.getD (i - off) (b.cell i) else b.cell i }

/-- `memcpy(&b[off], src, n)`, with `src` the bytes from the source pointer to the end of its
object. -/
def memcpy (b : Buffer) (off : Nat) (src : List U8) (n : Nat) : Except Abort Buffer :=
  if off + n ≤ b.size ∧ n ≤ src.length then .ok (b.splice off (src.take n))
  else .error .outOfBounds

/-- Storing bytes does not resize a buffer. -/
@[simp] theorem size_splice (b : Buffer) (off : Nat) (xs : List U8) :
    (b.splice off xs).size = b.size := rfl

/-- As many bytes are read as are asked for. -/
@[simp] theorem length_load (b : Buffer) (off n : Nat) : (b.load off n).length = n := by
  simp [load]

/-- Nothing is read when nothing is asked for. -/
@[simp] theorem load_zero (b : Buffer) (off : Nat) : b.load off 0 = [] := rfl

/-- Taking from a load is a shorter load. -/
theorem take_load (b : Buffer) (off : Nat) {m n : Nat} (hmn : m ≤ n) :
    (b.load off n).take m = b.load off m := by
  simp [load, ← List.map_take, List.take_range, hmn]

/-- **Store then load.** Bytes below the store are kept, and the stored bytes follow them. -/
theorem load_splice (b : Buffer) (off : Nat) (xs : List U8) :
    (b.splice off xs).load 0 (off + xs.length) = b.load 0 off ++ xs := by
  apply List.ext_getElem
  · simp
  · -- below the offset a cell is the old one, from there on a stored one
    intro i hi _
    have hlt : i < off + xs.length := by simpa using hi
    by_cases hlo : off ≤ i
    · have hx : i - off < xs.length := by omega
      simp [load, splice, hlo, List.getElem_append_right, hx]
    · have hbelow : i < off := by omega
      simp [load, splice, hlo, List.getElem_append_left, hbelow]

/-- What is stored at the start is loaded from there. -/
theorem load_splice_zero (b : Buffer) (xs : List U8) :
    (b.splice 0 xs).load 0 xs.length = xs := by
  have h := b.load_splice 0 xs
  rwa [Nat.zero_add] at h

/-- A copy inside both objects succeeds. -/
theorem memcpy_eq_ok {b : Buffer} {off n : Nat} {src : List U8} (hdst : off + n ≤ b.size)
    (hsrc : n ≤ src.length) : b.memcpy off src n = .ok (b.splice off (src.take n)) := by
  rw [memcpy, if_pos ⟨hdst, hsrc⟩]

end Buffer

/-! ## Files -/

/-- The files of the machine: what each path holds, and which paths can be opened for writing. -/
structure FileSystem where
  content : String → Option (List U8)
  writable : String → Bool

namespace FileSystem

/-- A machine without files, where every path can be created. -/
def empty : FileSystem := { content := fun _ => none, writable := fun _ => true }

/-- The file system with `bytes` at `path`. -/
def put (fs : FileSystem) (path : String) (bytes : List U8) : FileSystem :=
  { fs with content := fun p => if p = path then some bytes else fs.content p }

/-- The bytes at `path`, none if there is no file. -/
def bytesAt (fs : FileSystem) (path : String) : List U8 := (fs.content path).getD []

/-- A write does not change what can be written. -/
@[simp] theorem writable_put (fs : FileSystem) (path : String) (bytes : List U8) :
    (fs.put path bytes).writable = fs.writable := rfl

/-- The file written holds what was written. -/
@[simp] theorem content_put_self (fs : FileSystem) (path : String) (bytes : List U8) :
    (fs.put path bytes).content path = some bytes := by
  simp [put]

/-- The others hold what they held. -/
theorem content_put_of_ne (fs : FileSystem) {path p : String} (bytes : List U8) (hp : p ≠ path) :
    (fs.put path bytes).content p = fs.content p := by
  simp [put, hp]

/-- The bytes of the file written. -/
@[simp] theorem bytesAt_put_self (fs : FileSystem) (path : String) (bytes : List U8) :
    (fs.put path bytes).bytesAt path = bytes := by
  simp [bytesAt]

/-- Writing what is there changes nothing. -/
theorem put_eq_self {fs : FileSystem} {path : String} {bytes : List U8}
    (h : fs.content path = some bytes) : fs.put path bytes = fs := by
  obtain ⟨content, writable⟩ := fs
  simp only [put, mk.injEq, and_true]
  funext p
  by_cases hp : p = path
  · rw [if_pos hp, hp]
    exact h.symm
  · rw [if_neg hp]

/-- A second write to one path replaces the first. -/
@[simp] theorem put_put (fs : FileSystem) (path : String) (xs ys : List U8) :
    (fs.put path xs).put path ys = fs.put path ys := by
  simp only [put]
  congr 1
  funext p
  by_cases hp : p = path <;> simp [hp]

end FileSystem

/-! ## File streams -/

/-- `std::ifstream`: closed, or a file, the read position and the fail bit. The fail bit of a closed
stream is left out: `open` clears it and nothing else tests it. -/
inductive InputStream
  | closed
  | opened (path : String) (pos : Nat) (fail : Bool)
  deriving DecidableEq

/-- `std::ofstream`: closed, or a file and the fail bit. -/
inductive OutputStream
  | closed
  | opened (path : String) (fail : Bool)
  deriving DecidableEq

namespace InputStream

/-- `is_open()`. -/
def isOpen : InputStream → Bool
  | .closed => false
  | .opened .. => true

/-- `open(path, in | binary)`. Opening a stream that is already open fails and leaves the old file
attached. -/
def openFile (s : InputStream) (fs : FileSystem) (path : String) : InputStream :=
  match s with
  -- `filebuf::open` refuses a second file, and the failure sets the fail bit
  | .opened old pos _ => .opened old pos true
  | .closed => if (fs.content path).isSome then .opened path 0 false else .closed

/-- `read(buf, n)`: the bytes delivered (their number is `gcount()`) and the stream after it. A
short read sets the fail bit, and a failed stream delivers nothing. -/
def read (s : InputStream) (fs : FileSystem) (n : Nat) : List U8 × InputStream :=
  match s with
  | .opened path pos false =>
    let bytes := ((fs.bytesAt path).drop pos).take n
    -- the end of the file was met before `n` bytes were delivered
    (bytes, .opened path (pos + bytes.length) (decide (bytes.length < n)))
  | .opened path pos true => ([], .opened path pos true)
  | .closed => ([], .closed)

/-- `seekg(pos)`. -/
def seekg (s : InputStream) (pos : Nat) : InputStream :=
  match s with
  | .opened path _ false => .opened path pos false
  | s => s

/-- `close()`. -/
def close (_ : InputStream) : InputStream := .closed

end InputStream

namespace OutputStream

/-- `is_open()`. -/
def isOpen : OutputStream → Bool
  | .closed => false
  | .opened .. => true

/-- `open` for writing; `app` says whether `std::ios::app` is given, without it the file is
emptied. -/
def openFile (s : OutputStream) (fs : FileSystem) (path : String) (app : Bool) :
    OutputStream × FileSystem :=
  match s with
  -- as for input, the old file stays attached to the failed stream
  | .opened old _ => (.opened old true, fs)
  | .closed =>
    if fs.writable path then
      (.opened path false, fs.put path (if app then fs.bytesAt path else []))
    else (.closed, fs)

/-- `write(buf, n)`, with the `size_t` `n` converted to `std::streamsize`: the stream and the files
after it. The stream is the only writer of its file, so its position is the end of the file. -/
def write (s : OutputStream) (fs : FileSystem) (b : Buffer) (n : Nat) :
    Except Abort (OutputStream × FileSystem) :=
  match s with
  | .opened path false =>
    -- a negative length writes nothing, which is not what was asked for
    if longOfSize n < 0 then .ok (.opened path true, fs)
    else if b.size < n then .error .outOfBounds
    else .ok (.opened path false, fs.put path (fs.bytesAt path ++ b.load 0 n))
  -- a stream that is closed or has failed does not read the buffer
  | s => .ok (s, fs)

/-- `close()`. -/
def close (_ : OutputStream) : OutputStream := .closed

/-- A length that is positive as a `std::streamsize` has to fit in the buffer. -/
theorem write_opened (fs : FileSystem) (path : String) (b : Buffer) {n : Nat} (hn : n < 2 ^ 63) :
    (opened path false).write fs b n = if b.size < n then .error .outOfBounds
      else .ok (.opened path false, fs.put path (fs.bytesAt path ++ b.load 0 n)) := by
  have hpos := longOfSize_nonneg hn
  simp only [write, if_neg (Int.not_lt.mpr hpos)]

/-- A write that fits appends the bytes. -/
theorem write_of_le (fs : FileSystem) (path : String) {b : Buffer} {n : Nat} (hn : n < 2 ^ 63)
    (hle : n ≤ b.size) : (opened path false).write fs b n
      = .ok (.opened path false, fs.put path (fs.bytesAt path ++ b.load 0 n)) := by
  rw [write_opened fs path b hn, if_neg (Nat.not_lt.mpr hle)]

end OutputStream

end IQzip
