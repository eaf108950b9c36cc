/-
The DMRD codec's laws: what `Decode` accepts, what survives `Encode` followed
by `Decode`, and that `Decode` keeps every bit of the first 53 bytes and no
bit of the rest.

`normalize` and `Fits` state, in the words of the frame layout, what a field
of the wire can hold: a four-byte signature and the 8-, 24-, 32-, 2- and 4-bit
numbers.
-/
import Ipsc2Hbrp.Proto.Packet

namespace Ipsc2Hbrp.Proto

open Go

namespace Packet

/-- A packet after a trip through the wire: the signature cut or NUL-padded
to four bytes and every number reduced to the width of its field. -/
def normalize (p : Packet) : Packet :=
  { p with
    signature := (p.signature ++ make 4).take 4
    seq := p.seq % 2 ^ 8
    src := p.src % 2 ^ 24
    dst := p.dst % 2 ^ 24
    repeater := p.repeater % 2 ^ 32
    frameType := p.frameType % 4
    dTypeOrVSeq := p.dTypeOrVSeq % 16
    streamID := p.streamID % 2 ^ 32 }

structure Fits (p : Packet) : Prop where
  signature : p.signature.length = 4
  seq : p.seq < 2 ^ 8
  src : p.src < 2 ^ 24
  dst : p.dst < 2 ^ 24
  repeater : p.repeater < 2 ^ 32
  frameType : p.frameType < 4
  dTypeOrVSeq : p.dTypeOrVSeq < 16
  streamID : p.streamID < 2 ^ 32

theorem normalize_of_fits {p : Packet} (fits : p.Fits) : p.normalize = p := by
  cases p
  simp only [Packet.normalize, mk.injEq, Nat.mod_eq_of_lt fits.seq, Nat.mod_eq_of_lt fits.src,
    Nat.mod_eq_of_lt fits.dst, Nat.mod_eq_of_lt fits.repeater, Nat.mod_eq_of_lt fits.frameType,
    Nat.mod_eq_of_lt fits.dTypeOrVSeq, Nat.mod_eq_of_lt fits.streamID, and_true]
  exact List.take_left' fits.signature

theorem pad_take_four (s : Bytes) :
    (s ++ make 4).take 4 = [s.getD 0 0, s.getD 1 0, s.getD 2 0, s.getD 3 0] := by
  rcases s with _ | ⟨a, _ | ⟨b, _ | ⟨c, _ | ⟨d, rest⟩⟩⟩⟩ <;> rfl

theorem copy_make_eq_take (n : Nat) (s : Bytes) :
    (copy (make n) s).1 = (s ++ make n).take n := by
  simp [copy, make, List.take_append_eq_append_take, List.drop_replicate, List.take_replicate]

@[simp] theorem encode_length (p : Packet) : p.encode.length = 53 := by
  simp [encode]

end Packet

/-! ### Acceptance -/

theorem decode_ok_iff (data : Bytes) :
    (decode data).2 = true ↔ 53 ≤ data.length ∧ data.length ≤ 55 := by
  unfold decode
  split_ifs <;> simp <;> omega

/-! ### Encoding, then decoding -/

open Packet in
theorem decode_encode (p : Packet) : decode p.encode = (p.normalize, true) := by
  have dmr : (copy (make 33) p.dmrData.toList).1 = p.dmrData.toList :=
    copy_make p.dmrData.toList_length
  have dmrTake : p.dmrData.toList.take 33 = p.dmrData.toList :=
    List.take_of_length_le (by simp)
  have short (u : Nat) : beValue [byte (u >>> 16), byte (u >>> 8), byte u] = u % 2 ^ 24 :=
    beValue_beBytes 3 u
  have long (u : Nat) :
      beValue [byte (u >>> 24), byte (u >>> 16), byte (u >>> 8), byte u] = u % 2 ^ 32 :=
    beValue_beBytes 4 u
  rw [decode, dif_neg (by rw [encode_length]; omega), if_neg (by rw [encode_length]; omega)]
  simp only [encode, copy_make_eq_take 4, pad_take_four, dmr, List.cons_append,
    List.nil_append, List.getElem_cons_succ, List.getElem_cons_zero, ← beValue_three,
    ← beValue_four, short, long, slot_packFlags, groupCall_packFlags, frameType_packFlags,
    dTypeOrVSeq_packFlags, List.take_succ_cons, List.take_zero, List.drop_succ_cons,
    List.drop_zero, dmrTake, Packet.normalize, Prod.mk.injEq, mk.injEq]
  simp only [byte_toNat, Nat.reducePow, and_true, true_and]
  exact Subtype.ext rfl

/-! ### Decoding, then encoding -/

open Packet in
theorem encode_decode {data : Bytes} (accepted : (decode data).2 = true) :
    (decode data).1.encode = data.take 53 := by
  have window := (decode_ok_iff data).mp accepted
  rcases data with _ | ⟨b0, _ | ⟨b1, _ | ⟨b2, _ | ⟨b3, _ | ⟨b4, _ | ⟨b5, _ | ⟨b6, _ | ⟨b7, _ | ⟨b8, _ | ⟨b9, _ | ⟨b10, _ | ⟨b11, _ | ⟨b12, _ | ⟨b13, _ | ⟨b14, _ | ⟨b15, _ | ⟨b16, _ | ⟨b17, _ | ⟨b18, _ | ⟨b19, tail⟩⟩⟩⟩⟩⟩⟩⟩⟩⟩⟩⟩⟩⟩⟩⟩⟩⟩⟩⟩
  all_goals simp only [List.length_cons, List.length_nil] at window
  all_goals try omega
  have long : 33 ≤ tail.length := by omega
  have signature : (copy (make 4) [b0, b1, b2, b3]).1 = [b0, b1, b2, b3] := copy_make rfl
  have payload : (copy (make 33) (tail.take 33)).1 = tail.take 33 := copy_make (by simp; omega)
  have short (a b c : UInt8) : byte (beValue [a, b, c] >>> 16) = a ∧
      byte (beValue [a, b, c] >>> 8) = b ∧ byte (beValue [a, b, c]) = c := by
    simpa [beBytes] using beBytes_beValue [a, b, c]
  have long (a b c d : UInt8) : byte (beValue [a, b, c, d] >>> 24) = a ∧
      byte (beValue [a, b, c, d] >>> 16) = b ∧ byte (beValue [a, b, c, d] >>> 8) = c ∧
      byte (beValue [a, b, c, d]) = d := by
    simpa [beBytes] using beBytes_beValue [a, b, c, d]
  rw [decode, dif_neg (by simp; omega), if_neg (by simp; omega)]
  simp only [encode, List.getElem_cons_succ, List.getElem_cons_zero, List.take_succ_cons,
    List.take_zero, List.drop_succ_cons, List.drop_zero, Mathlib.Vector.toList_mk, signature,
    payload, byte_toNat_self, packFlags_of_bits, ← beValue_three, ← beValue_four, short, long,
    List.cons_append, List.nil_append]

open Packet in
theorem decode_fits {data : Bytes} (accepted : (decode data).2 = true) :
    (decode data).1.Fits := by
  have window := (decode_ok_iff data).mp accepted
  have short (a b c : UInt8) : a.toNat <<< 16 ||| b.toNat <<< 8 ||| c.toNat < 2 ^ 24 := by
    rw [← beValue_three]
    exact beValue_lt _
  have long (a b c d : UInt8) :
      a.toNat <<< 24 ||| b.toNat <<< 16 ||| c.toNat <<< 8 ||| d.toNat < 2 ^ 32 := by
    rw [← beValue_four]
    exact beValue_lt _
  rw [decode, dif_neg (by omega), if_neg (by omega)]
  refine ⟨by simp; omega, UInt8.toNat_lt_size _, short _ _ _, short _ _ _, long _ _ _ _, ?_, ?_,
    long _ _ _ _⟩
  · dsimp only
    rw [frameType_bits]
    omega
  · have byteSized := UInt8.toNat_lt_size data[15]
    dsimp only
    rw [dTypeOrVSeq_bits]
    simp only [UInt8.size] at byteSized
    omega

/-- `Decode` reads nothing past byte 52. -/
theorem decode_eq_decode_take {data : Bytes} (accepted : (decode data).2 = true) :
    (decode data).1 = (decode (data.take 53)).1 := by
  calc (decode data).1
      = (decode data).1.normalize := (Packet.normalize_of_fits (decode_fits accepted)).symm
    _ = (decode (decode data).1.encode).1 := by rw [decode_encode]
    _ = (decode (data.take 53)).1 := by rw [encode_decode accepted]

theorem encode_normalize (p : Packet) : p.normalize.encode = p.encode := by
  have accepted : (decode p.encode).2 = true := by rw [decode_encode]
  have written := encode_decode accepted
  rwa [decode_encode, List.take_of_length_le (by rw [Packet.encode_length])] at written

/-- Two packets go out as the same 53 bytes exactly when they agree once cut to
the frame's field widths; on packets that fit the frame, `Encode` is one to one. -/
theorem encode_eq_encode_iff (p q : Packet) : p.encode = q.encode ↔ p.normalize = q.normalize := by
  constructor
  · intro same
    have decoded := congrArg (fun data => (decode data).1) same
    simpa only [decode_encode] using decoded
  · intro same
    rw [← encode_normalize p, same, encode_normalize]

/-! ### The codec laws -/

/-- `Decode` after `Encode` returns the packet cut to its field widths, and the
packet itself when it fits. -/
theorem Packet.encode_decode_roundtrip (p : Packet) :
    decode p.encode = (p.normalize, true) ∧ (p.Fits → decode p.encode = (p, true)) :=
  ⟨decode_encode p, fun fits => by rw [decode_encode, Packet.normalize_of_fits fits]⟩

/-- `Decode` accepts 53 to 55 bytes, loses no bit of bytes 0..52 and reads none
of bytes 53..54. -/
theorem decode_accepts_window_and_keeps_prefix (data : Bytes) :
    ((decode data).2 = true ↔ 53 ≤ data.length ∧ data.length ≤ 55) ∧
      ((decode data).2 = true → (decode data).1.encode = data.take 53) ∧
      ∀ other : Bytes, (decode data).2 = true → (decode other).2 = true →
        ((decode data).1 = (decode other).1 ↔ data.take 53 = other.take 53) := by
  refine ⟨decode_ok_iff data, encode_decode, fun other accepted otherAccepted => ⟨?_, ?_⟩⟩
  · intro same
    rw [← encode_decode accepted, ← encode_decode otherAccepted, same]
  · intro samePrefix
    rw [decode_eq_decode_take accepted, decode_eq_decode_take otherAccepted, samePrefix]

end Ipsc2Hbrp.Proto
