/-
The DMRD frame of the MMDVM side (`internal/hbrp/proto`): the `Packet` record,
its field-by-field `Equal`, and the 53-byte `Encode` and `Decode`.

The flags byte gets a lemma per field saying what the source's shifts and masks
compute, in plain arithmetic, and the big-endian integer fields one decoder and
one encoder over any number of bytes; the round-trip theorems of `Proto.Codec`
are assembled from these alone.
-/
import Ipsc2Hbrp.Go.Basic
import Mathlib.Data.Vector.Defs

namespace Ipsc2Hbrp.Proto

open Go

/-- A DMRD frame as the Go `Packet` holds it; `uint` fields are unbounded. -/
structure Packet where
  signature : Bytes
  seq : Nat
  src : Nat
  dst : Nat
  repeater : Nat
  slot : Bool
  groupCall : Bool
  frameType : Nat
  dTypeOrVSeq : Nat
  streamID : Nat
  dmrData : Mathlib.Vector UInt8 33
  deriving DecidableEq

namespace Packet

def zero : Packet :=
  { signature := [], seq := 0, src := 0, dst := 0, repeater := 0, slot := false,
    groupCall := false, frameType := 0, dTypeOrVSeq := 0, streamID := 0,
    dmrData := ⟨make 33, make_length 33⟩ }

def equal (p other : Packet) : Bool :=
  if p.signature ≠ other.signature then false
  else if p.seq ≠ other.seq then false
  else if p.src ≠ other.src then false
  else if p.dst ≠ other.dst then false
  else if p.repeater ≠ other.repeater then false
  else if p.slot ≠ other.slot then false
  else if p.groupCall ≠ other.groupCall then false
  else if p.frameType ≠ other.frameType then false
  else if p.dTypeOrVSeq ≠ other.dTypeOrVSeq then false
  else if p.streamID ≠ other.streamID then false
  else if p.dmrData ≠ other.dmrData then false
  else true

def packFlags (slot groupCall : Bool) (frameType dTypeOrVSeq : Nat) : UInt8 :=
  let bits : UInt8 := 0
  let bits := if slot then bits ||| 0x1 else bits
  let bits := if !groupCall then bits ||| 0x2 else bits
  let bits := bits ||| byte ((frameType &&& 0x3) <<< 2)
  bits ||| byte ((dTypeOrVSeq &&& 0xF) <<< 4)

/-- The 53-byte buffer `Encode` fills, region by region: the signature copied
into bytes 0..3, sixteen header bytes, the payload copied into 20..52. -/
def encode (p : Packet) : Bytes :=
  (copy (make 4) p.signature).1 ++
    [byte p.seq,
      byte (p.src >>> 16), byte (p.src >>> 8), byte p.src,
      byte (p.dst >>> 16), byte (p.dst >>> 8), byte p.dst,
      byte (p.repeater >>> 24), byte (p.repeater >>> 16), byte (p.repeater >>> 8),
      byte p.repeater,
      packFlags p.slot p.groupCall p.frameType p.dTypeOrVSeq,
      byte (p.streamID >>> 24), byte (p.streamID >>> 16), byte (p.streamID >>> 8),
      byte p.streamID] ++
    (copy (make 33) p.dmrData.toList).1

end Packet

def decode (data : Bytes) : Packet × Bool :=
  if short : data.length < 53 then (Packet.zero, false)
  else if data.length > 55 then (Packet.zero, false)
  else
    let bits := data[15]
    ({ signature := data.take 4
       seq := data[4].toNat
       src := data[5].toNat <<< 16 ||| data[6].toNat <<< 8 ||| data[7].toNat
       dst := data[8].toNat <<< 16 ||| data[9].toNat <<< 8 ||| data[10].toNat
       repeater := data[11].toNat <<< 24 ||| data[12].toNat <<< 16 |||
         data[13].toNat <<< 8 ||| data[14].toNat
       slot := (bits &&& 0x1) != 0
       groupCall := !((bits &&& 0x2) != 0)
       frameType := ((bits &&& 0xC) >>> 2).toNat
       dTypeOrVSeq := ((bits &&& 0xF0) >>> 4).toNat
       streamID := data[16].toNat <<< 24 ||| data[17].toNat <<< 16 |||
         data[18].toNat <<< 8 ||| data[19].toNat
       dmrData := ⟨(copy (make 33) ((data.take 53).drop 20)).1, by simp⟩ }, true)

namespace Packet

/-! ### The flags byte -/

/-- The packed flags byte is slot + 2·private + 4·frame type + 16·data type. -/
theorem packFlags_toNat (slot groupCall : Bool) (frameType dTypeOrVSeq : Nat) :
    (packFlags slot groupCall frameType dTypeOrVSeq).toNat =
      slot.toNat + 2 * (!groupCall).toNat + 4 * (frameType % 4) + 16 * (dTypeOrVSeq % 16) := by
  have frameField : (byte ((frameType &&& 0x3) <<< 2)).toNat = 2 ^ 2 * (frameType % 4) := by
    rw [byte_toNat, show (0x3 : Nat) = 2 ^ 2 - 1 by rfl, Nat.and_pow_two_sub_one_eq_mod,
      Nat.shiftLeft_eq]
    omega
  have typeField : (byte ((dTypeOrVSeq &&& 0xF) <<< 4)).toNat = 2 ^ 4 * (dTypeOrVSeq % 16) := by
    rw [byte_toNat, show (0xF : Nat) = 2 ^ 4 - 1 by rfl, Nat.and_pow_two_sub_one_eq_mod,
      Nat.shiftLeft_eq]
    omega
  have upper : ∀ bits : UInt8, bits.toNat < 2 ^ 2 →
      (bits ||| byte ((frameType &&& 0x3) <<< 2) ||| byte ((dTypeOrVSeq &&& 0xF) <<< 4)).toNat =
        bits.toNat + 4 * (frameType % 4) + 16 * (dTypeOrVSeq % 16) := by
    intro bits small
    rw [toNat_lor, toNat_lor, frameField, typeField, Nat.or_comm bits.toNat,
      lor_eq_add_of_dvd (Nat.dvd_mul_right _ _) small, Nat.or_comm,
      lor_eq_add_of_dvd (Nat.dvd_mul_right _ _) (by omega)]
    omega
  cases slot <;> cases groupCall <;> exact upper _ (by decide)

theorem slot_bit (bits : UInt8) : ((bits &&& 0x1) != 0) = decide (bits.toNat % 2 = 1) := by
  have field : bits.toNat &&& 1 = bits.toNat >>> 0 % 2 ^ 1 <<< 0 := and_mask_shiftLeft _ 1 0
  rw [Bool.eq_iff_iff, bne_iff_ne, ne_eq, UInt8.ext_iff, UInt8.and_toNat, decide_eq_true_iff]
  show ¬ (bits.toNat &&& 1 = 0) ↔ _
  simp only [Nat.shiftLeft_eq, Nat.shiftRight_eq_div_pow] at field
  omega

theorem private_bit (bits : UInt8) : ((bits &&& 0x2) != 0) = decide (bits.toNat / 2 % 2 = 1) := by
  have field : bits.toNat &&& 2 = (bits.toNat >>> 1 % 2 ^ 1) <<< 1 := and_mask_shiftLeft _ 1 1
  rw [Bool.eq_iff_iff, bne_iff_ne, ne_eq, UInt8.ext_iff, UInt8.and_toNat, decide_eq_true_iff]
  show ¬ (bits.toNat &&& 2 = 0) ↔ _
  simp only [Nat.shiftLeft_eq, Nat.shiftRight_eq_div_pow] at field
  omega

theorem frameType_bits (bits : UInt8) : ((bits &&& 0xC) >>> 2).toNat = bits.toNat / 4 % 4 := by
  have field : bits.toNat &&& 12 = (bits.toNat >>> 2 % 2 ^ 2) <<< 2 := and_mask_shiftLeft _ 2 2
  rw [toNat_shiftRight, UInt8.and_toNat]
  show (bits.toNat &&& 12) >>> 2 = _
  simp only [Nat.shiftLeft_eq, Nat.shiftRight_eq_div_pow] at field ⊢
  omega

theorem dTypeOrVSeq_bits (bits : UInt8) : ((bits &&& 0xF0) >>> 4).toNat = bits.toNat / 16 := by
  have field : bits.toNat &&& 240 = (bits.toNat >>> 4 % 2 ^ 4) <<< 4 := and_mask_shiftLeft _ 4 4
  have byteSized : bits.toNat < 256 := bits.toNat_lt_size
  rw [toNat_shiftRight, UInt8.and_toNat]
  show (bits.toNat &&& 240) >>> 4 = _
  simp only [Nat.shiftLeft_eq, Nat.shiftRight_eq_div_pow] at field ⊢
  omega

theorem slot_packFlags (slot groupCall : Bool) (frameType dTypeOrVSeq : Nat) :
    ((packFlags slot groupCall frameType dTypeOrVSeq &&& 0x1) != 0) = slot := by
  rw [slot_bit, packFlags_toNat]
  cases slot <;> simp <;> omega

theorem groupCall_packFlags (slot groupCall : Bool) (frameType dTypeOrVSeq : Nat) :
    (!((packFlags slot groupCall frameType dTypeOrVSeq &&& 0x2) != 0)) = groupCall := by
  have := Bool.toNat_le slot
  rw [private_bit, packFlags_toNat]
  cases groupCall <;> simp <;> omega

theorem frameType_packFlags (slot groupCall : Bool) (frameType dTypeOrVSeq : Nat) :
    ((packFlags slot groupCall frameType dTypeOrVSeq &&& 0xC) >>> 2).toNat = frameType % 4 := by
  have := Bool.toNat_le slot
  have := Bool.toNat_le (!groupCall)
  rw [frameType_bits, packFlags_toNat]
  omega

theorem dTypeOrVSeq_packFlags (slot groupCall : Bool) (frameType dTypeOrVSeq : Nat) :
    ((packFlags slot groupCall frameType dTypeOrVSeq &&& 0xF0) >>> 4).toNat =
      dTypeOrVSeq % 16 := by
  have := Bool.toNat_le slot
  have := Bool.toNat_le (!groupCall)
  rw [dTypeOrVSeq_bits, packFlags_toNat]
  omega

theorem decide_odd_toNat (n : Nat) : (decide (n % 2 = 1)).toNat = n % 2 := by
  rcases Nat.mod_two_eq_zero_or_one n with parity | parity <;> simp [parity]

/-- `Encode` packs back the flags byte `Decode` read: no bit is lost. -/
theorem packFlags_of_bits (bits : UInt8) :
    packFlags ((bits &&& 0x1) != 0) (!((bits &&& 0x2) != 0)) ((bits &&& 0xC) >>> 2).toNat
      ((bits &&& 0xF0) >>> 4).toNat = bits := by
  have byteSized : bits.toNat < 256 := bits.toNat_lt_size
  rw [UInt8.ext_iff, packFlags_toNat, slot_bit, private_bit, frameType_bits, dTypeOrVSeq_bits,
    Bool.not_not, decide_odd_toNat, decide_odd_toNat]
  omega

end Packet

/-! ### Big-endian fields

`Src` and `Dst` take three bytes and `Repeater` and `StreamID` four, most
significant first. `beValue` is `Decode`'s side of such a field and `beBytes`
`Encode`'s, for any number of bytes; the source spells them out at three and
four bytes. -/

/-- `b₀ << 8(n-1) | … | bₙ₋₁`: a field as `Decode` assembles it from its bytes. -/
def beValue : Bytes → Nat
  | [] => 0
  | b :: rest => b.toNat <<< (8 * rest.length) ||| beValue rest

/-- `byte(u >> 8(n-1)), …, byte(u)`: the `n` bytes `Encode` writes for a field. -/
def beBytes : Nat → Nat → Bytes
  | 0, _ => []
  | n + 1, u => byte (u >>> (8 * n)) :: beBytes n u

@[simp] theorem beBytes_length (n u : Nat) : (beBytes n u).length = n := by
  induction n <;> simp [beBytes, *]

theorem beValue_lt (bytes : Bytes) : beValue bytes < 2 ^ (8 * bytes.length) := by
  induction bytes with
  | nil => decide
  | cons b rest ih =>
      rw [List.length_cons]
      have high : b.toNat <<< (8 * rest.length) < 2 ^ (8 * (rest.length + 1)) :=
        calc b.toNat <<< (8 * rest.length)
            = 2 ^ (8 * rest.length) * b.toNat := by rw [Nat.shiftLeft_eq, Nat.mul_comm]
          _ < 2 ^ (8 * rest.length) * 2 ^ 8 :=
            Nat.mul_lt_mul_of_pos_left b.toNat_lt_size (Nat.two_pow_pos _)
          _ = 2 ^ (8 * (rest.length + 1)) := by rw [← Nat.pow_add, Nat.mul_succ]
      exact Nat.or_lt_two_pow high (ih.trans_le (Nat.pow_le_pow_right (by decide) (by omega)))

theorem beValue_cons (b : UInt8) (rest : Bytes) :
    beValue (b :: rest) = 2 ^ (8 * rest.length) * b.toNat + beValue rest := by
  rw [beValue, Nat.shiftLeft_eq, Nat.mul_comm,
    lor_eq_add_of_dvd (Nat.dvd_mul_right _ _) (beValue_lt rest)]

theorem beValue_beBytes (n u : Nat) : beValue (beBytes n u) = u % 2 ^ (8 * n) := by
  induction n with
  | zero => simp [beBytes, beValue, Nat.mod_one]
  | succ n ih =>
      rw [beBytes, beValue_cons, beBytes_length, ih, byte_toNat, Nat.shiftRight_eq_div_pow,
        Nat.mul_succ, Nat.pow_add, Nat.mod_mul, Nat.add_comm]

theorem beBytes_mod (n u : Nat) : beBytes n (u % 2 ^ (8 * n)) = beBytes n u := by
  induction n generalizing u with
  | zero => rfl
  | succ n ih =>
      have low : u % 2 ^ (8 * (n + 1)) % 2 ^ (8 * n) = u % 2 ^ (8 * n) :=
        Nat.mod_mod_of_dvd _ (Nat.pow_dvd_pow 2 (by omega))
      have top : byte ((u % 2 ^ (8 * (n + 1))) >>> (8 * n)) = byte (u >>> (8 * n)) := by
        rw [byte_eq_iff, byte_toNat, Nat.shiftRight_eq_div_pow, Nat.shiftRight_eq_div_pow,
          Nat.mul_succ, Nat.pow_add, Nat.mod_mul_right_div_self, Nat.mod_mod]
      rw [beBytes, beBytes, top, ← ih, low, ih]

theorem beBytes_beValue (bytes : Bytes) : beBytes bytes.length (beValue bytes) = bytes := by
  induction bytes with
  | nil => rfl
  | cons b rest ih =>
      have small := beValue_lt rest
      have top : beValue (b :: rest) >>> (8 * rest.length) = b.toNat := by
        rw [beValue_cons, Nat.shiftRight_eq_div_pow, Nat.mul_add_div (Nat.two_pow_pos _),
          Nat.div_eq_of_lt small, Nat.add_zero]
      have low : beValue (b :: rest) % 2 ^ (8 * rest.length) = beValue rest := by
        rw [beValue_cons, Nat.mul_add_mod, Nat.mod_eq_of_lt small]
      rw [List.length_cons, beBytes, top, byte_toNat_self,
        ← beBytes_mod rest.length (beValue (b :: rest)), low, ih]

theorem beValue_three (a b c : UInt8) :
    beValue [a, b, c] = a.toNat <<< 16 ||| b.toNat <<< 8 ||| c.toNat := by
  simp [beValue, Nat.or_assoc]

theorem beValue_four (a b c d : UInt8) :
    beValue [a, b, c, d] = a.toNat <<< 24 ||| b.toNat <<< 16 ||| c.toNat <<< 8 ||| d.toNat := by
  simp [beValue, Nat.or_assoc]

end Ipsc2Hbrp.Proto
