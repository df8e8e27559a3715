import Mathlib.Algebra.Group.Int
import Mathlib.Algebra.Group.Nat.Basic
import Mathlib.Data.List.Basic

/-! The fixed-size `char` buffers of `distributed_ai.c` read as C strings, and the bounded
copies (`strncpy`, clamped `memcpy`) that fill them. -/
namespace DistributedAi

/-! ## Bytes

A `char` is a `UInt8`; facts about bytes are moved to `toNat` and closed by `omega`. -/

@[simp] theorem toNat_byte_lit (n : ℕ) : (no_index (OfNat.ofNat n : UInt8)).toNat = n % 256 := rfl
@[simp] theorem toNat_toUInt8 (n : ℕ) : n.toUInt8.toNat = n % 256 := rfl

theorem byte_le_iff {a b : UInt8} : a ≤ b ↔ a.toNat ≤ b.toNat := Iff.rfl
theorem byte_lt_iff {a b : UInt8} : a < b ↔ a.toNat < b.toNat := Iff.rfl
theorem byte_eq_iff {a b : UInt8} : a = b ↔ a.toNat = b.toNat := ⟨congrArg _, UInt8.toNat.inj⟩

theorem toUInt8_toNat (c : UInt8) : c.toNat.toUInt8 = c :=
  UInt8.toNat.inj (UInt8.toNat_ofNat_of_lt c.toNat_lt_size)

/-- ASCII text as the bytes a C string literal compiles to. -/
def ascii (s : String) : List UInt8 := s.toList.map fun c => c.toNat.toUInt8

/-- The text a `char[max+1]` buffer holds: the bytes before its NUL, at most `max` of them. -/
structure CStr (max : ℕ) where
  bytes : List UInt8
  nul_free : (0 : UInt8) ∉ bytes
  fits : bytes.length ≤ max
  deriving DecidableEq

namespace CStr

variable {max : ℕ}

@[ext] theorem ext {s t : CStr max} (h : s.bytes = t.bytes) : s = t := by
  cases s; cases t; cases h; rfl

def empty : CStr max := ⟨[], List.not_mem_nil _, Nat.zero_le _⟩

@[simp] theorem empty_bytes : (empty : CStr max).bytes = [] := rfl

/-- The C string a byte sequence starts with: its bytes before the first NUL. -/
def prefixOf (src : List UInt8) : List UInt8 := src.takeWhile (· ≠ 0)

theorem zero_not_mem_prefixOf (src : List UInt8) : (0 : UInt8) ∉ prefixOf src := by
  intro h
  simpa using List.mem_takeWhile_imp h

@[simp] theorem prefixOf_of_nul_free {src : List UInt8} (h : (0 : UInt8) ∉ src) :
    prefixOf src = src :=
  List.takeWhile_eq_self_iff.mpr fun a ha => by
    simpa using fun h' : a = 0 => h (h' ▸ ha)

/-- `strncpy(dst, src, max)` into a zeroed `char[max+1]`, and equally `strlen` of `src`
clamped to `max` followed by `memcpy`: the C string `src` cut to `max` bytes. -/
def ofBytes (max : ℕ) (src : List UInt8) : CStr max :=
  ⟨(prefixOf src).take max, fun h => zero_not_mem_prefixOf src (List.mem_of_mem_take h),
    List.length_take_le _ _⟩

@[simp] theorem ofBytes_bytes (src : List UInt8) :
    (ofBytes max src).bytes = (prefixOf src).take max := rfl

theorem length_ofBytes_le (src : List UInt8) : (ofBytes max src).bytes.length ≤ src.length :=
  le_trans (List.length_take_le' _ _) (List.takeWhile_prefix _).length_le

/-- Copying a string that fits its destination copies it whole. -/
theorem ofBytes_of_fits {src : List UInt8} (h0 : (0 : UInt8) ∉ src) (h : src.length ≤ max) :
    (ofBytes max src).bytes = src := by
  simp [prefixOf_of_nul_free h0, List.take_of_length_le h]

@[simp] theorem ofBytes_self {n : ℕ} (s : CStr n) (h : n ≤ max) : (ofBytes max s.bytes).bytes = s.bytes :=
  ofBytes_of_fits s.nul_free (s.fits.trans h)

/-- A string literal copied with `strcpy`. -/
def lit (s : String) (h0 : (0 : UInt8) ∉ ascii s) (h : (ascii s).length ≤ max) : CStr max :=
  ⟨ascii s, h0, h⟩

end CStr

end DistributedAi
