import Mathlib.Data.List.Basic
import Mathlib.Data.List.GetD
import Mathlib.Data.List.Induction
import Mathlib.Data.List.TakeDrop
import Mathlib.Algebra.Order.Group.Nat
import Mathlib.Tactic.Common
import Mathlib.Tactic.Ring

/-!
# Bytes

Numbers as little-endian bytes, signed numbers in two's complement, and blocks of bytes at
offsets of a longer byte string.

`LittleEndian.value` and `LittleEndian.bytes` are inverse on numbers of the given width
(`value_bytes`); `Bytes.At` says that a block lies at an offset, and `Bytes.slice` reads it
back (`At.slice`). Ranges of a byte string are half open; those that meet no other are
`Bytes.Range.Apart`.
-/

namespace L2Flow

/-! ## Little-endian numbers -/

namespace LittleEndian

/-- The number with these bytes, the least significant first. -/
def value : List UInt8 → ℕ
  | [] => 0
  | octet :: rest => octet.toNat + 256 * value rest

/-- The `width` lowest bytes of a number. -/
def bytes : ℕ → ℕ → List UInt8
  | 0, _ => []
  | width + 1, n => UInt8.ofNat (n % 256) :: bytes width (n / 256)

@[simp] theorem length_bytes (width n : ℕ) : (bytes width n).length = width := by
  induction width generalizing n with
  | zero => rfl
  | succ width ih => rw [bytes, List.length_cons, ih]

theorem value_bytes_mod (width n : ℕ) : value (bytes width n) = n % 256 ^ width := by
  induction width generalizing n with
  | zero => rw [bytes, value, pow_zero, Nat.mod_one]
  | succ width ih =>
    have hoctet : (UInt8.ofNat (n % 256)).toNat = n % 256 := by simp
    calc value (bytes (width + 1) n)
        = n % 256 + 256 * (n / 256 % 256 ^ width) := by rw [bytes, value, hoctet, ih]
      _ = n % (256 * 256 ^ width) := Nat.mod_mul.symm
      _ = n % 256 ^ (width + 1) := by rw [pow_succ']

theorem value_bytes {width n : ℕ} (h : n < 256 ^ width) : value (bytes width n) = n := by
  rw [value_bytes_mod, Nat.mod_eq_of_lt h]

theorem value_lt (octets : List UInt8) : value octets < 256 ^ octets.length := by
  induction octets with
  | nil => exact Nat.one_pos
  | cons octet rest ih =>
    have hoctet : octet.toNat < 256 := octet.toNat_lt
    rw [value, List.length_cons, pow_succ']
    omega

theorem value_snoc (octets : List UInt8) (octet : UInt8) :
    value (octets ++ [octet]) = value octets + 256 ^ octets.length * octet.toNat := by
  induction octets with
  | nil => simp [value]
  | cons first rest ih =>
    rw [List.cons_append, value, ih, value, List.length_cons, pow_succ']
    ring

/-- Bytes that are put in place one after the other, each shifted over those before it. -/
theorem foldl_or_eq_value (octets : List UInt8) :
    (List.range octets.length).foldl
      (fun value index => value ||| (octets.getD index 0).toNat <<< (8 * index)) 0 =
      value octets := by
  induction octets using List.reverseRecOn with
  | nil => rfl
  | append_singleton octets octet ih =>
    have hearlier : (List.range octets.length).foldl
        (fun value index => value ||| ((octets ++ [octet]).getD index 0).toNat <<< (8 * index)) 0 =
        value octets := by
      rw [← ih]
      refine List.foldl_ext _ _ _ fun value index hindex => ?_
      rw [List.mem_range] at hindex
      rw [List.getD_append _ _ _ _ hindex]
    have hlast : (octets ++ [octet]).getD octets.length 0 = octet := by simp
    have hpow : 256 ^ octets.length = 2 ^ (8 * octets.length) := by
      rw [pow_mul]
      norm_num
    have hlt : value octets < 2 ^ (8 * octets.length) := hpow ▸ value_lt octets
    rw [List.length_append, List.length_singleton, List.range_succ, List.foldl_append, hearlier,
      List.foldl_cons, List.foldl_nil, hlast, Nat.or_comm, ← Nat.shiftLeft_add_eq_or_of_lt hlt,
      value_snoc, hpow, Nat.shiftLeft_eq]
    ring

/-- A two's complement number of the given number of bits, read from its bits. -/
def signed (bits n : ℕ) : ℤ :=
  (BitVec.ofNat bits n).toInt

/-- The bits of a number in two's complement. -/
def unsigned (bits : ℕ) (n : ℤ) : ℕ :=
  (BitVec.ofInt bits n).toNat

theorem signed_unsigned {bits : ℕ} {n : ℤ} (hbits : 0 < bits) (hlow : -2 ^ (bits - 1) ≤ n)
    (hhigh : n < 2 ^ (bits - 1)) : signed bits (unsigned bits n) = n := by
  rw [signed, unsigned, BitVec.ofNat_toNat, BitVec.setWidth_eq]
  exact BitVec.toInt_ofInt_eq_self hbits hlow hhigh

theorem unsigned_lt (bits : ℕ) (n : ℤ) : unsigned bits n < 2 ^ bits :=
  (BitVec.ofInt bits n).isLt

end LittleEndian

/-! ## Blocks -/

namespace Bytes

variable {body : List UInt8} {offset : ℕ} {block : List UInt8}

/-- `size` bytes from `offset` on, as far as there are any. -/
def slice (body : List UInt8) (offset size : ℕ) : List UInt8 :=
  (body.drop offset).take size

/-- The block lies at `offset`. -/
def At (body : List UInt8) (offset : ℕ) (block : List UInt8) : Prop :=
  ∃ before after, body = before ++ (block ++ after) ∧ before.length = offset

theorem length_slice {size : ℕ} (h : offset + size ≤ body.length) :
    (slice body offset size).length = size := by
  rw [slice, List.length_take, List.length_drop]
  omega

theorem At.le_length (h : At body offset block) : offset + block.length ≤ body.length := by
  obtain ⟨before, after, rfl, rfl⟩ := h
  simp only [List.length_append]
  omega

theorem At.slice (h : At body offset block) : slice body offset block.length = block := by
  obtain ⟨before, after, rfl, rfl⟩ := h
  rw [Bytes.slice, List.drop_left, List.take_left]

theorem at_iff : At body offset block ↔
    offset + block.length ≤ body.length ∧ Bytes.slice body offset block.length = block := by
  refine ⟨fun h => ⟨h.le_length, h.slice⟩, fun ⟨hle, hslice⟩ => ?_⟩
  refine ⟨body.take offset, (body.drop offset).drop block.length, ?_, ?_⟩
  · have hblock : block ++ (body.drop offset).drop block.length = body.drop offset := by
      conv_lhs => arg 1; rw [← hslice, Bytes.slice]
      exact List.take_append_drop _ _
    rw [hblock, List.take_append_drop]
  · rw [List.length_take]
    omega

instance : Decidable (At body offset block) :=
  decidable_of_iff _ at_iff.symm

theorem At.append {block' : List UInt8} (h : At body offset (block ++ block')) :
    At body offset block ∧ At body (offset + block.length) block' := by
  obtain ⟨before, after, rfl, rfl⟩ := h
  refine ⟨⟨before, block' ++ after, by simp, rfl⟩, ⟨before ++ block, after, by simp, by simp⟩⟩

/-- A number that lies at `offset` is what the bytes there say. -/
theorem At.value {width n : ℕ} (h : At body offset (LittleEndian.bytes width n))
    (hn : n < 256 ^ width) : LittleEndian.value (Bytes.slice body offset width) = n := by
  have hslice := h.slice
  rw [LittleEndian.length_bytes] at hslice
  rw [hslice, LittleEndian.value_bytes hn]

/-! ## Ranges -/

/-- The bytes from `start` up to `stop`. -/
structure Range where
  start : ℕ
  stop : ℕ
  deriving DecidableEq, Repr

namespace Range

/-- No byte is in both. -/
def Apart (r q : Range) : Prop :=
  r.stop ≤ q.start ∨ q.stop ≤ r.start

instance (r q : Range) : Decidable (r.Apart q) :=
  inferInstanceAs (Decidable (_ ∨ _))

end Range

end Bytes

end L2Flow
