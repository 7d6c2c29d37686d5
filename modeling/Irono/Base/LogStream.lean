import Irono.Base.Types
import Irono.Lib.Numeral
import Irono.Lib.Slice
import Irono.Lib.Transition

/-!
# `Base.LogStream` — the bytes a log record is written into (`LogStream.h`, `LogStream.cc`)

A `CharArray` is an array of `SIZE` bytes of which the code has only pointers: a store that begins or ends
outside it is the fault `outOfBounds`. `LogBuffer` is `FixedBuffer` with its array and `cur_`; the numbers
are written in place, behind `cur_`, before `cur_` moves.

`IntType` stands for the template parameter of `convert`: an integer type is the range of its values, and
`/` and `%` truncate towards zero. `snprintf` is represented by the text it prints.
-/

namespace Irono

open Transition Slice

/-- The bytes of a string of ASCII characters. -/
def ascii (s : String) : List Byte := s.toList.map fun c => UInt8.ofNat c.toNat

def kSmallBuffer : Nat := 4000

namespace LogStream

def kMaxNumericSize : Nat := 32

/-- What undefined behaviour takes the place of. -/
inductive Fault where
  | outOfBounds
  deriving DecidableEq, Repr

/-! ## Memory -/

/-- `char data[SIZE]` -/
structure CharArray (SIZE : Nat) where
  bytes : List Byte
  length_eq : bytes.length = SIZE

variable {SIZE : Nat}

/-- Bytes are copied to position `p`, `memcpy` or one by one. -/
def CharArray.store (a : CharArray SIZE) (p : Nat) (text : List Byte) : Result Fault (CharArray SIZE) :=
  if h : p + text.length ≤ SIZE then
    .ok ⟨overwrite a.bytes p text, by rw [length_overwrite (by rw [a.length_eq]; exact h), a.length_eq]⟩
  else .error (.fault .outOfBounds)

/-- The bytes from position `p` up to `q`. -/
def CharArray.read (a : CharArray SIZE) (p q : Nat) : List Byte := slice a.bytes p q

/-! ## Numbers -/

/-- The integer types of the overloads. -/
inductive IntType where
  | int
  | unsignedInt
  | long
  | unsignedLong
  deriving DecidableEq, Repr

def IntType.min : IntType → Int
  | .int => -2 ^ 31
  | .long => -2 ^ 63
  | .unsignedInt | .unsignedLong => 0

def IntType.max : IntType → Int
  | .int => 2 ^ 31 - 1
  | .unsignedInt => 2 ^ 32 - 1
  | .long => 2 ^ 63 - 1
  | .unsignedLong => 2 ^ 64 - 1

/-- A value of the type. -/
structure IntType.Value (T : IntType) where
  val : Int
  min_le : T.min ≤ val
  le_max : val ≤ T.max

/-- A quotient lies between the dividend and zero. -/
theorem tdiv_between {x m M : Int} (hm : m ≤ 0) (hM : 0 ≤ M) (hlo : m ≤ x) (hhi : x ≤ M) (base : Nat) :
    m ≤ x.tdiv base ∧ x.tdiv base ≤ M := by
  rcases Int.le_total 0 x with hx | hx
  · have h0 := Int.tdiv_nonneg hx (Int.natCast_nonneg base)
    have hle := Int.tdiv_le_self base hx
    omega
  · have h0 := Int.tdiv_nonneg (Int.neg_nonneg_of_nonpos hx) (Int.natCast_nonneg base)
    have hle := Int.tdiv_le_self base (Int.neg_nonneg_of_nonpos hx)
    rw [Int.neg_tdiv] at h0 hle
    omega

/-- `i / base` -/
def IntType.Value.quot {T : IntType} (i : T.Value) (base : Nat) : T.Value :=
  have h := tdiv_between (by cases T <;> decide) (by cases T <;> decide) i.min_le i.le_max base
  ⟨i.val.tdiv base, h.1, h.2⟩

/-- `reinterpret_cast<uintptr_t>` gives such a value. -/
abbrev uintptr_t : Type := IntType.unsignedLong.Value

def digits : List Byte := ascii "9876543210123456789"
def digitsHex : List Byte := ascii "0123456789ABCDEF"

/-- `zero[lsd]`: `zero` points to the `'0'` of `digits`. -/
def zero (lsd : Int) : Byte := digits.getD (9 + lsd).toNat 0

/-- The base of a digit loop and its table. -/
structure Radix where
  base : Nat
  one_lt : 1 < base
  digit : Int → Byte

def decimal : Radix := ⟨10, by decide, zero⟩
def hexadecimal : Radix := ⟨16, by decide, fun lsd => digitsHex.getD lsd.toNat 0⟩

/-- The `do`-`while` of `convert` and `convertHex`: the digits of `i` from position `p` on, the last one
    first, and the position behind them. -/
def digitLoop (r : Radix) {T : IntType} (buf : CharArray SIZE) (p : Nat) (i : T.Value) :
    Result Fault (CharArray SIZE × Nat) := do
  let buf ← buf.store p [r.digit (i.val.tmod r.base)]
  if (i.quot r.base).val ≠ 0 then digitLoop r buf (p + 1) (i.quot r.base) else return (buf, p + 1)
termination_by i.val.natAbs
decreasing_by
  rename_i hne
  have hne' : i.val.tdiv r.base ≠ 0 := hne
  show (i.val.tdiv r.base).natAbs < i.val.natAbs
  have hpos : 0 < i.val.natAbs := by
    rw [Int.natAbs_pos]
    rintro h0
    rw [h0, Int.zero_tdiv] at hne'
    exact hne' rfl
  rw [Int.natAbs_tdiv, Int.natAbs_natCast]
  exact Nat.div_lt_self hpos r.one_lt

/-- The terminating NUL at `p`, and `std::reverse(buf, p)`. -/
def finish (a : CharArray SIZE) (buf p : Nat) : Result Fault (CharArray SIZE × Nat) := do
  let a ← a.store p [0]
  let a ← a.store buf (a.read buf p).reverse
  return (a, p - buf)

/-- `convert(buf, value)`, with `buf` a position of the array; the length is returned. -/
def convert (a : CharArray SIZE) (buf : Nat) {T : IntType} (value : T.Value) :
    Result Fault (CharArray SIZE × Nat) := do
  let (a, p) ← digitLoop decimal a buf value
  if value.val < 0 then
    let a ← a.store p (ascii "-")
    finish a buf (p + 1)
  else finish a buf p

def convertHex (a : CharArray SIZE) (buf : Nat) (value : uintptr_t) : Result Fault (CharArray SIZE × Nat) := do
  let (a, p) ← digitLoop hexadecimal a buf value
  finish a buf p

/-! ## The buffer -/

/-- `class FixedBuffer` with its array and `cur_ - data_`. -/
structure LogBuffer (SIZE : Nat) where
  data : CharArray SIZE
  cur : Nat

namespace LogBuffer

/-- The constructor; it leaves the array as it finds it. -/
def new (data : CharArray SIZE) : LogBuffer SIZE := ⟨data, 0⟩

def avail (b : LogBuffer SIZE) : Int := SIZE - b.cur

def add (b : LogBuffer SIZE) (len : Nat) : LogBuffer SIZE := { b with cur := b.cur + len }

/-- `data()`, `length()` bytes of it. -/
def content (b : LogBuffer SIZE) : List Byte := b.data.read 0 b.cur

def append (b : LogBuffer SIZE) (buf : List Byte) : Result Fault (LogBuffer SIZE) := do
  if int32 buf.length < b.avail then
    let data ← b.data.store b.cur buf
    return { data := data, cur := b.cur + buf.length }
  else return b

end LogBuffer

/-! ## The stream -/

/-- A C string: the bytes before its NUL. -/
structure CString where
  chars : List Byte
  noNul : 0 ∉ chars

/-- What `"%.12g"` prints, with the bound on it. -/
structure DoubleText where
  chars : List Byte
  short : chars.length < kMaxNumericSize

/-- The operands of the overloads of `operator<<`. -/
inductive Item where
  | cString (str : Option CString)
  | string (v : List Byte)
  | integer (T : IntType) (v : T.Value)
  | char (v : Byte)
  | pointer (p : uintptr_t)
  | double (v : DoubleText)

/-- `formatInteger` -/
def formatInteger (b : LogBuffer SIZE) {T : IntType} (v : T.Value) : Result Fault (LogBuffer SIZE) := do
  if kMaxNumericSize ≤ b.avail then
    let (data, len) ← convert b.data b.cur v
    return { data := data, cur := b.cur + len }
  else return b

/-- `operator<<(const void*)` -/
def formatPointer (b : LogBuffer SIZE) (p : uintptr_t) : Result Fault (LogBuffer SIZE) := do
  if kMaxNumericSize ≤ b.avail then
    let data ← b.data.store b.cur (ascii "0")
    let data ← data.store (b.cur + 1) (ascii "x")
    let (data, len) ← convertHex data (b.cur + 2) p
    return { data := data, cur := b.cur + (len + 2) }
  else return b

/-- `operator<<(double)`: `snprintf` writes at most `kMaxNumericSize` bytes, the NUL included. -/
def formatDouble (b : LogBuffer SIZE) (v : DoubleText) : Result Fault (LogBuffer SIZE) := do
  if kMaxNumericSize ≤ b.avail then
    let data ← b.data.store b.cur (v.chars.take (kMaxNumericSize - 1) ++ [0])
    return { data := data, cur := b.cur + v.chars.length }
  else return b

/-- `operator<<` -/
def insert (b : LogBuffer SIZE) : Item → Result Fault (LogBuffer SIZE)
  | .cString (some str) => b.append str.chars
  | .cString none => b.append (ascii "(null)")
  | .string v => b.append v
  | .integer _ v => formatInteger b v
  | .char v => b.append [v]
  | .pointer p => formatPointer b p
  | .double v => formatDouble b v

/-- A sequence of insertions. -/
def insertAll (b : LogBuffer SIZE) : List Item → Result Fault (LogBuffer SIZE)
  | [] => return b
  | item :: items => do
    let b ← insert b item
    insertAll b items

end LogStream

end Irono
