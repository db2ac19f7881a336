import Mathlib.Algebra.Group.Int.Defs
import Mathlib.Algebra.Group.Nat.Defs
import Mathlib.Data.List.TakeWhile

/-!
# LibCheck.Platform

What the sources take from C and its library: the width of `size_t` and the
integer conversions that depend on it, NUL-terminated strings, the decimal
and bounded formatting of `snprintf`, and the `eprintf` calls that end a
process.

`int` is 32 bits wide (`Int32`), `ck_uint32` is `UInt32`; `size_t` is either
32 or 64 bits wide and its values are natural numbers.  An overflow of a
`size_t` or a wrong sign is visible because the conversions are written out.
-/

namespace LibCheck

/-! ## integer conversions -/

/-- `INT_MAX`. -/
def intMax : Nat := 2147483647

/-- `CK_UINT32_MAX`. -/
def uint32Max : Nat := 4294967295

/-- The width of `size_t` and `ssize_t` on the target platform. -/
inductive SizeT where
  | w32
  | w64
deriving DecidableEq, Repr

namespace SizeT

/-- Number of bits of a `size_t`. -/
def bits : SizeT → Nat
  | .w32 => 32
  | .w64 => 64

/-- `SSIZE_MAX`. -/
def ssizeMax : SizeT → Nat
  | .w32 => 2147483647
  | .w64 => 9223372036854775807

/-- `SIZE_MAX`. -/
def sizeMax : SizeT → Nat
  | .w32 => 4294967295
  | .w64 => 18446744073709551615

/-- `(size_t) i` of an `int`: a negative value is sign-extended. -/
def ofInt (sz : SizeT) (i : Int32) : Nat := (i.toInt % (2 ^ sz.bits : Nat)).toNat

/-- `(ssize_t) n` of a `size_t`: a value above `SSIZE_MAX` turns negative. -/
def toSsize (sz : SizeT) (n : Nat) : Int :=
  if n ≤ sz.ssizeMax then (n : Int) else (n : Int) - (2 ^ sz.bits : Nat)

theorem toSsize_of_le {sz : SizeT} (h : n ≤ sz.ssizeMax) : sz.toSsize n = (n : Int) :=
  if_pos h

theorem toSsize_neg {sz : SizeT} (h : sz.ssizeMax < n) (hn : n ≤ sz.sizeMax) :
    sz.toSsize n < 0 := by
  rw [toSsize, if_neg (by omega)]
  cases sz <;> simp only [sizeMax, bits] at hn ⊢ <;> omega

end SizeT

/-- An `int` is non-negative exactly when its `ck_uint32` image is at most
`INT_MAX`. -/
theorem nonneg_iff_toUInt32_le (i : Int32) : 0 ≤ i.toInt ↔ i.toUInt32.toNat ≤ intMax := by
  rw [← Int32.toInt_toBitVec, BitVec.toInt_eq_toNat_cond, Int32.toNat_toBitVec, intMax]
  have hlt := i.toUInt32.toNat_lt
  split <;> omega

/-- A non-negative `int` never exceeds `CK_UINT32_MAX` as a `size_t`. -/
theorem ofInt_le_of_nonneg {sz : SizeT} {i : Int32} (h : 0 ≤ i.toInt) :
    sz.ofInt i ≤ uint32Max := by
  have hlt := i.toInt_lt
  cases sz <;> simp only [SizeT.ofInt, SizeT.bits, uint32Max] <;> omega

/-- With a 64-bit `size_t` a negative `int` is sign-extended past
`CK_UINT32_MAX`; this is what the senders' range guards rely on. -/
theorem nonneg_of_ofInt_w64_le {i : Int32} (h : SizeT.w64.ofInt i ≤ uint32Max) :
    0 ≤ i.toInt := by
  have hge := i.le_toInt
  simp only [SizeT.ofInt, SizeT.bits, uint32Max] at h
  omega

/-! ## strings -/

/-- A C string: the bytes before the terminating NUL. -/
structure CStr where
  bytes : List UInt8
  nul_free : 0 ∉ bytes
deriving DecidableEq, Repr

namespace CStr

theorem ext_bytes {a b : CStr} (h : a.bytes = b.bytes) : a = b := by
  cases a; cases b; cases h; rfl

/-- The empty string. -/
def empty : CStr := ⟨[], List.not_mem_nil⟩

instance : Inhabited CStr := ⟨empty⟩

/-- `strlen`. -/
def strlen (s : CStr) : Nat := s.bytes.length

/-- The string a byte buffer followed by a NUL denotes: the buffer up to its
first NUL byte. -/
def ofBuf (buf : List UInt8) : CStr :=
  ⟨buf.takeWhile (· ≠ 0), fun h => by simpa using List.mem_takeWhile_imp h⟩

@[simp] theorem ofBuf_bytes (s : CStr) : ofBuf s.bytes = s := by
  apply ext_bytes
  simp only [ofBuf]
  rw [List.takeWhile_eq_self_iff]
  intro b hb
  have hne : b ≠ 0 := fun h => s.nul_free (h ▸ hb)
  simpa using hne

/-- A string literal of the sources. -/
def lit (s : String) : CStr := ofBuf (s.toList.map fun c => UInt8.ofNat c.toNat)

/-- What `snprintf` and `vsnprintf` leave in a buffer of `size` bytes. -/
def truncate (size : Nat) (text : List UInt8) : CStr := ofBuf (text.take (size - 1))

end CStr

/-- `%d` of `printf`. -/
def fmtInt (i : Int) : List UInt8 := (CStr.lit (toString i)).bytes

/-- `%s` of `printf`; a null pointer prints as `(null)`. -/
def fmtStr : Option CStr → List UInt8
  | some s => s.bytes
  | none => (CStr.lit "(null)").bytes

/-! ## eprintf -/

/-- The calls of `eprintf` in the modelled sources.  Each prints its text to
`stderr` and ends the process with `exit(2)`. -/
inductive EPrintf where
  /-- `Value of len (%zu) too big, max allowed %u` in `pack`. -/
  | lenTooBig (len : Nat)
  /-- `Value of diff (%td) too big, max allowed %d` in `upack`. -/
  | diffTooBig (diff : Nat)
  /-- `Value of strsz (%zu) too big, max allowed %u` in `pack_str`. -/
  | strszTooBig (strsz : Nat)
  /-- `Value of cmsg->duration (%d) too big to pack, max allowed %u`. -/
  | durationTooBig (duration : Int32)
  /-- `Unpacked value (%u) too big for cmsg->duration, max allowed %d`. -/
  | unpackedDurationTooBig (duration : UInt32)
  /-- `Value of lmsg->line (%d) too big, max allowed %u`. -/
  | lineTooBig (line : Int32)
  /-- `Unpacked value (%u) too big for lmsg->line, max allowed %d`. -/
  | unpackedLineTooBig (line : UInt32)
  /-- `Bad message type arg %d` in `check_type`. -/
  | badMessageType (type : UInt32)
  /-- `Message string too long` in `ppack`. -/
  | messageTooLong
  /-- `Error in call to get_result` in `punpack`. -/
  | getResultError
  /-- `Unable to report test progress or a failure; was an ck_assert or
  ck_abort function called while not running tests?` in `get_pipe`. -/
  | noPipe
  /-- `Error in call to punpack` in `receive_test_result`. -/
  | punpackError
  /-- `Only one nesting of suite runs supported` in `setup_pipe`. -/
  | oneNesting
  /-- `No messaging setup` in `teardown_pipe`. -/
  | noMessaging
  /-- `Bad fork status in SRunner` in `srunner_iterate_tcase_tfuns`. -/
  | badForkStatus
deriving DecidableEq, Repr

end LibCheck
