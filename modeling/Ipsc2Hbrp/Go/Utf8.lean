/-
`utf8.RuneCountInString`, which `fmt` pads `%-<w>s` by, as the table-driven
loop of `unicode/utf8` computes it: at each step a lead byte announces a
sequence length (the `first` table), the second byte must lie in the lead's
`acceptRanges` entry and any later one in `0x80..0xBF`; a byte that starts no
valid sequence counts as one rune.

The count agrees with the encoding: on the UTF-8 bytes of any string it is the
number of characters (`runeCount_utf8`).
-/
import Ipsc2Hbrp.Go.Basic
import Mathlib.Tactic.Positivity

namespace Ipsc2Hbrp.Go

/-! ### The decoder -/

/-- The length of the sequence a leading byte `c ≥ 0x80` announces (the low
bits of `utf8`'s `first` table), 0 for a byte that cannot lead one. -/
def leadSize (c : UInt8) : Nat :=
  if c < 0xC2 then 0 else if c < 0xE0 then 2 else if c < 0xF0 then 3 else if c < 0xF5 then 4
  else 0

def acceptLo (c : UInt8) : UInt8 := if c = 0xE0 then 0xA0 else if c = 0xF0 then 0x90 else 0x80

def acceptHi (c : UInt8) : UInt8 := if c = 0xED then 0x9F else if c = 0xF4 then 0x8F else 0xBF

/-- How many bytes `utf8.RuneCountInString` steps over at `c :: rest`: the
length of a valid encoding there, else 1. -/
def runeWidth (c : UInt8) (rest : Bytes) : Nat :=
  if c < 0x80 then 1
  else if leadSize c = 0 ∨ rest.length + 1 < leadSize c then 1
  else if rest.getD 0 0 < acceptLo c ∨ acceptHi c < rest.getD 0 0 then 1
  else if leadSize c = 2 then 2
  else if rest.getD 1 0 < 0x80 ∨ 0xBF < rest.getD 1 0 then 1
  else if leadSize c = 3 then 3
  else if rest.getD 2 0 < 0x80 ∨ 0xBF < rest.getD 2 0 then 1
  else 4

def runeCountAux : (fuel : Nat) → Bytes → Nat
  | 0, _ => 0
  | _ + 1, [] => 0
  | fuel + 1, c :: rest => 1 + runeCountAux fuel ((c :: rest).drop (runeWidth c rest))

/-- `utf8.RuneCountInString`: every step consumes a byte, so the length is fuel enough. -/
def runeCount (s : Bytes) : Nat := runeCountAux s.length s

/-! ### The decoder on numbers -/

theorem leadSize_eq (c : UInt8) : leadSize c =
    if c.toNat < 0xC2 then 0 else if c.toNat < 0xE0 then 2 else if c.toNat < 0xF0 then 3
    else if c.toNat < 0xF5 then 4 else 0 := rfl

theorem acceptLo_toNat (c : UInt8) : (acceptLo c).toNat =
    if c.toNat = 0xE0 then 0xA0 else if c.toNat = 0xF0 then 0x90 else 0x80 := by
  have e0 : c = 0xE0 ↔ c.toNat = 0xE0 := UInt8.ext_iff
  have f0 : c = 0xF0 ↔ c.toNat = 0xF0 := UInt8.ext_iff
  unfold acceptLo
  simp only [e0, f0]
  split_ifs <;> rfl

theorem acceptHi_toNat (c : UInt8) : (acceptHi c).toNat =
    if c.toNat = 0xED then 0x9F else if c.toNat = 0xF4 then 0x8F else 0xBF := by
  have ed : c = 0xED ↔ c.toNat = 0xED := UInt8.ext_iff
  have f4 : c = 0xF4 ↔ c.toNat = 0xF4 := UInt8.ext_iff
  unfold acceptHi
  simp only [ed, f4]
  split_ifs <;> rfl

theorem runeWidth_eq (c : UInt8) (rest : Bytes) : runeWidth c rest =
    if c.toNat < 0x80 then 1
    else if leadSize c = 0 ∨ rest.length + 1 < leadSize c then 1
    else if (rest.getD 0 0).toNat < (acceptLo c).toNat ∨ (acceptHi c).toNat < (rest.getD 0 0).toNat
      then 1
    else if leadSize c = 2 then 2
    else if (rest.getD 1 0).toNat < 0x80 ∨ 0xBF < (rest.getD 1 0).toNat then 1
    else if leadSize c = 3 then 3
    else if (rest.getD 2 0).toNat < 0x80 ∨ 0xBF < (rest.getD 2 0).toNat then 1
    else 4 := rfl

theorem runeWidth_pos (c : UInt8) (rest : Bytes) : 0 < runeWidth c rest := by
  unfold runeWidth
  positivity

theorem runeWidth_of_ascii {c : UInt8} (ascii : c < 0x80) (rest : Bytes) :
    runeWidth c rest = 1 := if_pos ascii

theorem acceptLo_le_iff (c : UInt8) (x : Nat) : (acceptLo c).toNat ≤ x ↔
    0x80 ≤ x ∧ (c.toNat = 0xE0 → 0xA0 ≤ x) ∧ (c.toNat = 0xF0 → 0x90 ≤ x) := by
  rw [acceptLo_toNat]
  split_ifs <;> omega

theorem le_acceptHi_iff (c : UInt8) (x : Nat) : x ≤ (acceptHi c).toNat ↔
    x ≤ 0xBF ∧ (c.toNat = 0xED → x ≤ 0x9F) ∧ (c.toNat = 0xF4 → x ≤ 0x8F) := by
  rw [acceptHi_toNat]
  split_ifs <;> omega

theorem runeWidth_two {c b : UInt8} (rest : Bytes) (lead : 0xC2 ≤ c.toNat ∧ c.toNat < 0xE0)
    (second : (acceptLo c).toNat ≤ b.toNat ∧ b.toNat ≤ (acceptHi c).toNat) :
    runeWidth c (b :: rest) = 2 := by
  have size : leadSize c = 2 := by rw [leadSize_eq, if_neg (by omega), if_pos (by omega)]
  rw [runeWidth_eq, size, List.getD_cons_zero, List.length_cons, if_neg (by omega),
    if_neg (by omega), if_neg (by omega), if_pos rfl]

theorem runeWidth_three {c b1 b2 : UInt8} (rest : Bytes) (lead : 0xE0 ≤ c.toNat ∧ c.toNat < 0xF0)
    (second : (acceptLo c).toNat ≤ b1.toNat ∧ b1.toNat ≤ (acceptHi c).toNat)
    (third : 0x80 ≤ b2.toNat ∧ b2.toNat ≤ 0xBF) : runeWidth c (b1 :: b2 :: rest) = 3 := by
  have size : leadSize c = 3 := by
    rw [leadSize_eq, if_neg (by omega), if_neg (by omega), if_pos (by omega)]
  rw [runeWidth_eq, size, List.getD_cons_zero, List.getD_cons_succ, List.getD_cons_zero,
    List.length_cons, List.length_cons, if_neg (by omega), if_neg (by omega), if_neg (by omega),
    if_neg (by omega), if_neg (by omega), if_pos rfl]

theorem runeWidth_four {c b1 b2 b3 : UInt8} (rest : Bytes) (lead : 0xF0 ≤ c.toNat ∧ c.toNat < 0xF5)
    (second : (acceptLo c).toNat ≤ b1.toNat ∧ b1.toNat ≤ (acceptHi c).toNat)
    (third : 0x80 ≤ b2.toNat ∧ b2.toNat ≤ 0xBF) (fourth : 0x80 ≤ b3.toNat ∧ b3.toNat ≤ 0xBF) :
    runeWidth c (b1 :: b2 :: b3 :: rest) = 4 := by
  have size : leadSize c = 4 := by
    rw [leadSize_eq, if_neg (by omega), if_neg (by omega), if_neg (by omega), if_pos (by omega)]
  rw [runeWidth_eq, size, List.getD_cons_zero, List.getD_cons_succ, List.getD_cons_zero,
    List.getD_cons_succ, List.getD_cons_succ, List.getD_cons_zero, List.length_cons,
    List.length_cons, List.length_cons, if_neg (by omega), if_neg (by omega), if_neg (by omega),
    if_neg (by omega), if_neg (by omega), if_neg (by omega), if_neg (by omega)]

/-! ### Counting -/

theorem runeCountAux_le (fuel : Nat) (s : Bytes) : runeCountAux fuel s ≤ s.length := by
  induction fuel generalizing s with
  | zero => exact Nat.zero_le _
  | succ fuel ih =>
      cases s with
      | nil => exact Nat.zero_le _
      | cons c rest =>
          have step := ih ((c :: rest).drop (runeWidth c rest))
          have wide := runeWidth_pos c rest
          simp only [runeCountAux, List.length_drop, List.length_cons] at step ⊢
          omega

theorem runeCount_le_length (s : Bytes) : runeCount s ≤ s.length := runeCountAux_le _ s

theorem runeCountAux_eq_runeCount {fuel : Nat} {s : Bytes} (enough : s.length ≤ fuel) :
    runeCountAux fuel s = runeCount s := by
  suffices same : ∀ fuel fuel' (s : Bytes), s.length ≤ fuel → s.length ≤ fuel' →
      runeCountAux fuel s = runeCountAux fuel' s from same fuel s.length s enough le_rfl
  intro fuel
  induction fuel with
  | zero =>
      intro fuel' s enough _
      rw [List.eq_nil_of_length_eq_zero (Nat.eq_zero_of_le_zero enough)]
      cases fuel' <;> rfl
  | succ fuel ih =>
      intro fuel' s enough enough'
      cases s with
      | nil => cases fuel' <;> rfl
      | cons c rest =>
          obtain ⟨fuel', rfl⟩ : ∃ f, fuel' = f + 1 := ⟨fuel' - 1, by simp at enough'; omega⟩
          have wide := runeWidth_pos c rest
          simp only [List.length_cons] at enough enough'
          simp only [runeCountAux]
          rw [ih fuel' _ (by simp; omega) (by simp; omega)]

theorem runeCount_cons (c : UInt8) (rest : Bytes) :
    runeCount (c :: rest) = 1 + runeCount ((c :: rest).drop (runeWidth c rest)) := by
  have wide := runeWidth_pos c rest
  rw [runeCount, List.length_cons, runeCountAux, runeCountAux_eq_runeCount (by simp; omega)]

theorem runeCount_of_ascii {s : Bytes} (ascii : ∀ c ∈ s, c < 0x80) : runeCount s = s.length := by
  induction s with
  | nil => rfl
  | cons c rest ih =>
      rw [runeCount_cons, runeWidth_of_ascii (ascii c (List.mem_cons_self c rest)), List.drop_one,
        List.tail_cons, ih fun d member => ascii d (List.mem_cons_of_mem c member),
        List.length_cons, Nat.add_comm]

/-! ### Valid encodings -/

theorem toNat_toUInt8 (v : UInt32) : v.toUInt8.toNat = v.toNat % 256 := byte_toNat v.toNat

theorem toNat_shiftRight32 (v k : UInt32) : (v >>> k).toNat = v.toNat / 2 ^ (k.toNat % 32) := by
  show (v.toBitVec >>> (k % 32).toBitVec).toNat = _
  simp [UInt32.toNat, UInt32.mod_def, Nat.shiftRight_eq_div_pow]

theorem toNat_and_or (x mask high : UInt8) (k : Nat) (maskBits : mask.toNat = 2 ^ k - 1)
    (aligned : 2 ^ k ∣ high.toNat) : (x &&& mask ||| high).toNat = high.toNat + x.toNat % 2 ^ k := by
  rw [toNat_lor, UInt8.and_toNat, maskBits, Nat.and_pow_two_sub_one_eq_mod, Nat.or_comm,
    lor_eq_add_of_dvd aligned (Nat.mod_lt _ (by positivity))]

theorem continuation_toNat (v : UInt32) :
    (v.toUInt8 &&& 0x3f ||| 0x80).toNat = 128 + v.toNat % 64 := by
  rw [toNat_and_or _ 0x3f 0x80 6 rfl ⟨2, rfl⟩, toNat_toUInt8]
  show 128 + v.toNat % 256 % 64 = _
  omega

theorem shifted_continuation_toNat (v k : UInt32) :
    ((v >>> k).toUInt8 &&& 0x3f ||| 0x80).toNat = 128 + v.toNat / 2 ^ (k.toNat % 32) % 64 := by
  rw [continuation_toNat, toNat_shiftRight32]

theorem encode_one {v : UInt32} (rest : Bytes) (ascii : v.toNat ≤ 0x7F) :
    runeWidth v.toUInt8 ([] ++ rest) = 1 :=
  runeWidth_of_ascii (show v.toUInt8.toNat < 0x80 by rw [toNat_toUInt8]; omega) _

theorem encode_two {v : UInt32} (rest : Bytes) (above : 0x7F < v.toNat) (below : v.toNat ≤ 0x7FF) :
    runeWidth ((v >>> 6).toUInt8 &&& 0x1f ||| 0xc0) ([v.toUInt8 &&& 0x3f ||| 0x80] ++ rest) = 2 := by
  have lead : ((v >>> 6).toUInt8 &&& 0x1f ||| 0xc0).toNat = 192 + v.toNat / 64 := by
    rw [toNat_and_or _ 0x1f 0xc0 5 rfl ⟨6, rfl⟩, toNat_toUInt8, toNat_shiftRight32]
    show 192 + v.toNat / 64 % 256 % 32 = _
    omega
  have last := continuation_toNat v
  refine runeWidth_two rest (by rw [lead]; omega) ?_
  rw [acceptLo_le_iff, le_acceptHi_iff, lead, last]
  omega

/-- A three-byte encoding: the surrogates `0xD800..0xDFFF`, which no `Char`
holds, are the values the `acceptRanges` entry of `0xED` excludes. -/
theorem encode_three {v : UInt32} (rest : Bytes) (above : 0x7FF < v.toNat) (below : v.toNat ≤ 0xFFFF)
    (notSurrogate : v.toNat < 0xD800 ∨ 0xDFFF < v.toNat) :
    runeWidth ((v >>> 12).toUInt8 &&& 0x0f ||| 0xe0)
      ([(v >>> 6).toUInt8 &&& 0x3f ||| 0x80, v.toUInt8 &&& 0x3f ||| 0x80] ++ rest) = 3 := by
  have lead : ((v >>> 12).toUInt8 &&& 0x0f ||| 0xe0).toNat = 224 + v.toNat / 4096 := by
    rw [toNat_and_or _ 0x0f 0xe0 4 rfl ⟨14, rfl⟩, toNat_toUInt8, toNat_shiftRight32]
    show 224 + v.toNat / 4096 % 256 % 16 = _
    omega
  have second : ((v >>> 6).toUInt8 &&& 0x3f ||| 0x80).toNat = 128 + v.toNat / 64 % 64 :=
    shifted_continuation_toNat v 6
  have third := continuation_toNat v
  refine runeWidth_three rest (by rw [lead]; omega) ?_ (by rw [third]; omega)
  rw [acceptLo_le_iff, le_acceptHi_iff, lead, second]
  omega

/-- A four-byte encoding: values up to `0x10FFFF`, the bound the `acceptRanges`
entry of `0xF4` enforces. -/
theorem encode_four {v : UInt32} (rest : Bytes) (above : 0xFFFF < v.toNat)
    (below : v.toNat < 0x110000) :
    runeWidth ((v >>> 18).toUInt8 &&& 0x07 ||| 0xf0)
      ([(v >>> 12).toUInt8 &&& 0x3f ||| 0x80, (v >>> 6).toUInt8 &&& 0x3f ||| 0x80,
        v.toUInt8 &&& 0x3f ||| 0x80] ++ rest) = 4 := by
  have lead : ((v >>> 18).toUInt8 &&& 0x07 ||| 0xf0).toNat = 240 + v.toNat / 262144 := by
    rw [toNat_and_or _ 0x07 0xf0 3 rfl ⟨30, rfl⟩, toNat_toUInt8, toNat_shiftRight32]
    show 240 + v.toNat / 262144 % 256 % 8 = _
    omega
  have second : ((v >>> 12).toUInt8 &&& 0x3f ||| 0x80).toNat = 128 + v.toNat / 4096 % 64 :=
    shifted_continuation_toNat v 12
  have third : ((v >>> 6).toUInt8 &&& 0x3f ||| 0x80).toNat = 128 + v.toNat / 64 % 64 :=
    shifted_continuation_toNat v 6
  have fourth := continuation_toNat v
  refine runeWidth_four rest (by rw [lead]; omega) ?_ (by rw [third]; omega) (by rw [fourth]; omega)
  rw [acceptLo_le_iff, le_acceptHi_iff, lead, second]
  omega

theorem runeWidth_utf8EncodeChar (c : Char) (rest : Bytes) :
    ∃ lead tail, String.utf8EncodeChar c = lead :: tail ∧
      runeWidth lead (tail ++ rest) = tail.length + 1 := by
  have valid : c.val.toNat < 0xD800 ∨ (0xDFFF < c.val.toNat ∧ c.val.toNat < 0x110000) := c.valid
  unfold String.utf8EncodeChar
  dsimp only
  split_ifs with one two three
  · exact ⟨_, _, rfl, encode_one rest one⟩
  · exact ⟨_, _, rfl, encode_two rest (Nat.lt_of_not_le one) two⟩
  · exact ⟨_, _, rfl, encode_three rest (Nat.lt_of_not_le two) three (by omega)⟩
  · have above : 0xFFFF < c.val.toNat := Nat.lt_of_not_le three
    exact ⟨_, _, rfl, encode_four rest above (by omega)⟩

theorem utf8_eq_flatMap (text : String) : utf8 text = text.data.flatMap String.utf8EncodeChar :=
  rfl

/-- `RuneCountInString` of a UTF-8 encoding counts its characters. -/
theorem runeCount_utf8 (text : String) : runeCount (utf8 text) = text.length := by
  rw [utf8_eq_flatMap, String.length]
  induction text.data with
  | nil => rfl
  | cons c rest ih =>
      obtain ⟨lead, tail, encoded, width⟩ :=
        runeWidth_utf8EncodeChar c (rest.flatMap String.utf8EncodeChar)
      rw [List.flatMap_cons, encoded, List.cons_append, runeCount_cons, width, List.drop_succ_cons,
        List.drop_left, ih, List.length_cons, Nat.add_comm]

end Ipsc2Hbrp.Go
