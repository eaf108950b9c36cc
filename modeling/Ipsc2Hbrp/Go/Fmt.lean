/-
The `fmt` verbs the MMDVM handshake packets are built with, as the Go library
computes them: `%0<w>d` and `%0<w>x` (`fmtInteger`), `%x` of a byte slice
(`fmtSbx`), `%-<w>s` (`padString`, which counts runes with
`utf8.RuneCountInString`) and `%f` (`strconv.FormatFloat` with precision 6).

Beside them stand the readers a protocol peer applies: the value of a run of
digits, and `hex.DecodeString`.
-/
import Ipsc2Hbrp.Go.Utf8
import Mathlib.Tactic.Ring

namespace Ipsc2Hbrp.Go

/-! ### Integers -/

def ldigits : Bytes := utf8 "0123456789abcdefx"

def digitByte (d : Nat) : UInt8 := ldigits.getD d 0

/-- The digit loop of `fmtInteger`: `u % base` while `u ≥ base`, then `u`, least
significant first.  `fuel` bounds the loop; `u` itself is always enough. -/
def integerDigits (base : Nat) : (fuel u : Nat) → List Nat
  | 0, u => [u]
  | fuel + 1, u => if u < base then [u] else u % base :: integerDigits base fuel (u / base)

/-- `%0<width>d` (base 10) and `%0<width>x` (base 16) of an unsigned integer:
its digits, most significant first, zero-padded on the left to `width`. -/
def formatUint (base width u : Nat) : Bytes :=
  let digits := (integerDigits base u u).reverse.map digitByte
  List.replicate (width - digits.length) (digitByte 0) ++ digits

def formatHexBytes (bytes : Bytes) : Bytes :=
  bytes.flatMap fun c => [digitByte (c >>> 4).toNat, digitByte (c &&& 0xF).toNat]

/-! ### Strings -/

/-- `%-<width>s` (and `fmt.pad` under the `-` flag): spaces after `s` up to
`width` runes; a longer `s` is kept whole. -/
def padRight (width : Nat) (s : Bytes) : Bytes :=
  s ++ List.replicate (width - runeCount s) (byte 32)

/-! ### `float64` -/

/-- Division rounding half to even, as `strconv`'s `shouldRoundUp` decides. -/
def roundHalfEven (a b : Nat) : Nat :=
  if b < 2 * (a % b) ∨ (2 * (a % b) = b ∧ a / b % 2 = 1) then a / b + 1 else a / b

/-- `%f` of a `float64`, as `fmt.fmtFloat` prints `strconv.FormatFloat(x, 'f', 6, 64)`:
`NaN`, `+Inf`, `-Inf`, or the exact value rounded half to even at six decimals,
behind a `-` when the sign bit is set. -/
def formatFloat (x : Float64) : Bytes :=
  let bits := x.bits.toNat
  let exponent := bits / 2 ^ 52 % 2 ^ 11
  let fraction := bits % 2 ^ 52
  if exponent = 0x7FF then
    if fraction ≠ 0 then utf8 "NaN" else if x.negative then utf8 "-Inf" else utf8 "+Inf"
  else
    -- the value is `mantissa * 2 ^ (scale - 1075)`
    let mantissa := if exponent = 0 then fraction else fraction + 2 ^ 52
    let scale := if exponent = 0 then 1 else exponent
    let micros :=
      if 1075 ≤ scale then mantissa * 2 ^ (scale - 1075) * 10 ^ 6
      else roundHalfEven (mantissa * 10 ^ 6) (2 ^ (1075 - scale))
    (if x.negative then utf8 "-" else []) ++ formatUint 10 1 (micros / 10 ^ 6) ++ utf8 "." ++
      formatUint 10 6 (micros % 10 ^ 6)

/-! ### Reading digits back -/

def fromHexChar (c : UInt8) : Option Nat :=
  if 48 ≤ c.toNat ∧ c.toNat ≤ 57 then some (c.toNat - 48)
  else if 97 ≤ c.toNat ∧ c.toNat ≤ 102 then some (c.toNat - 87)
  else if 65 ≤ c.toNat ∧ c.toNat ≤ 70 then some (c.toNat - 55)
  else none

def readDigits (base : Nat) (text : Bytes) : Nat :=
  text.foldl (fun value c => base * value + (fromHexChar c).getD 0) 0

/-- `text` is exactly `width` lowercase digits of `base` spelling `value`. -/
def Spells (base width value : Nat) (text : Bytes) : Prop :=
  text.length = width ∧ (∀ c ∈ text, c ∈ ldigits.take base) ∧ readDigits base text = value

def hexDecode : Bytes → Option Bytes
  | [] => some []
  | [_] => none
  | high :: low :: rest => do
    let h ← fromHexChar high
    let l ← fromHexChar low
    let tail ← hexDecode rest
    pure (byte (16 * h + l) :: tail)

/-! ### The digit loop -/

theorem integerDigits_value (base fuel u : Nat) :
    (integerDigits base fuel u).foldr (fun d value => base * value + d) 0 = u := by
  induction fuel generalizing u with
  | zero => simp [integerDigits]
  | succ fuel ih =>
      unfold integerDigits
      split
      · simp
      · simp only [List.foldr_cons, ih]
        exact Nat.div_add_mod u base

theorem integerDigits_lt {base : Nat} (twoAtLeast : 2 ≤ base) :
    ∀ fuel u, u ≤ fuel → ∀ d ∈ integerDigits base fuel u, d < base := by
  intro fuel
  induction fuel with
  | zero =>
      intro u small d member
      simp only [integerDigits, List.mem_singleton] at member
      omega
  | succ fuel ih =>
      intro u bounded d member
      unfold integerDigits at member
      split at member
      · simp only [List.mem_singleton] at member
        omega
      · rcases List.mem_cons.mp member with rfl | later
        · exact Nat.mod_lt _ (by omega)
        · have quotient : u / base < u := Nat.div_lt_self (by omega) (by omega)
          exact ih (u / base) (by omega) d later

theorem integerDigits_length_le {base : Nat} (twoAtLeast : 2 ≤ base) :
    ∀ fuel u k, 0 < k → u < base ^ k → (integerDigits base fuel u).length ≤ k := by
  intro fuel
  induction fuel with
  | zero => intro u k positive _; simpa [integerDigits] using positive
  | succ fuel ih =>
      intro u k positive fits
      unfold integerDigits
      split
      · simpa using positive
      · obtain ⟨j, rfl⟩ : ∃ j, k = j + 1 := ⟨k - 1, by omega⟩
        have wide : 0 < j := by
          rcases Nat.eq_zero_or_pos j with rfl | pos
          · simp at fits
            omega
          · exact pos
        have quotient : u / base < base ^ j := by
          rw [Nat.div_lt_iff_lt_mul (by omega), ← Nat.pow_succ]
          exact fits
        simpa using ih (u / base) j wide quotient

/-! ### Reading back what `fmt` wrote -/

theorem fromHexChar_digitByte : ∀ d < 16, fromHexChar (digitByte d) = some d := by
  decide

theorem digitByte_mem {base d : Nat} (small : d < base) (hex : base ≤ 16) :
    digitByte d ∈ ldigits.take base := by
  have inTable : d < ldigits.length := by
    show d < 17
    omega
  have inPrefix : d < (ldigits.take base).length := by
    rw [List.length_take]
    omega
  have entry : digitByte d = (ldigits.take base).get ⟨d, inPrefix⟩ := by
    simp [digitByte, List.getElem?_eq_getElem inTable]
  rw [entry]
  exact List.get_mem _ _ _

theorem readDigits_append (base : Nat) (front back : Bytes) :
    readDigits base (front ++ back) =
      back.foldl (fun value c => base * value + (fromHexChar c).getD 0) (readDigits base front) :=
  List.foldl_append _ _ _ _

theorem readDigits_zeros (base k : Nat) : readDigits base (List.replicate k (digitByte 0)) = 0 := by
  induction k with
  | zero => rfl
  | succ k ih =>
      rw [List.replicate_succ', readDigits_append, ih]
      rfl

theorem readDigits_zeros_append (base k : Nat) (rest : Bytes) :
    readDigits base (List.replicate k (digitByte 0) ++ rest) = readDigits base rest := by
  rw [readDigits_append, readDigits_zeros]
  rfl

theorem readDigits_digits {base : Nat} {ds : List Nat} (small : ∀ d ∈ ds, d < 16) :
    readDigits base (ds.reverse.map digitByte) = ds.foldr (fun d value => base * value + d) 0 := by
  induction ds with
  | nil => rfl
  | cons d rest ih =>
      rw [List.reverse_cons, List.map_append, readDigits_append,
        ih (fun e member => small e (List.mem_cons_of_mem d member))]
      simp [fromHexChar_digitByte d (small d (List.mem_cons_self d rest))]

theorem formatUint_digits {base : Nat} (width u : Nat) (twoAtLeast : 2 ≤ base) (hex : base ≤ 16) :
    ∀ c ∈ formatUint base width u, c ∈ ldigits.take base := by
  have digitsSmall := integerDigits_lt twoAtLeast u u le_rfl
  intro c member
  simp only [formatUint, List.mem_append, List.mem_replicate, List.mem_map,
    List.mem_reverse] at member
  rcases member with ⟨-, rfl⟩ | ⟨d, member, rfl⟩
  · exact digitByte_mem (by omega) hex
  · exact digitByte_mem (digitsSmall d member) hex

theorem readDigits_formatUint {base : Nat} (width u : Nat) (twoAtLeast : 2 ≤ base)
    (hex : base ≤ 16) : readDigits base (formatUint base width u) = u := by
  have digitsSmall := integerDigits_lt twoAtLeast u u le_rfl
  rw [formatUint, readDigits_zeros_append,
    readDigits_digits (fun d member => by have := digitsSmall d member; omega),
    integerDigits_value]

theorem formatUint_length_le {base width u k : Nat} (twoAtLeast : 2 ≤ base) (wide : width ≤ k)
    (positive : 0 < k) (fits : u < base ^ k) : (formatUint base width u).length ≤ k := by
  have short := integerDigits_length_le twoAtLeast u u k positive fits
  simp only [formatUint, List.length_append, List.length_replicate, List.length_map,
    List.length_reverse]
  omega

/-- `%0<width>d` and `%0<width>x` of a number that fits print exactly `width`
digits that read back as the number. -/
theorem formatUint_spells {base width u : Nat} (twoAtLeast : 2 ≤ base) (hex : base ≤ 16)
    (positive : 0 < width) (fits : u < base ^ width) :
    Spells base width u (formatUint base width u) := by
  have short := integerDigits_length_le twoAtLeast u u width positive fits
  exact ⟨by simp [formatUint]; omega, formatUint_digits width u twoAtLeast hex,
    readDigits_formatUint width u twoAtLeast hex⟩

theorem width_le_formatUint_length (base width u : Nat) :
    width ≤ (formatUint base width u).length := by
  simp only [formatUint, List.length_append, List.length_replicate]
  omega

theorem digits_value_lt {base : Nat} {ds : List Nat} (small : ∀ d ∈ ds, d < base) :
    ds.foldr (fun d value => base * value + d) 0 < base ^ ds.length := by
  induction ds with
  | nil => simp
  | cons d rest ih =>
      have head := small d (List.mem_cons_self d rest)
      have tail := ih fun e member => small e (List.mem_cons_of_mem d member)
      have scaled := Nat.mul_le_mul_left base (Nat.succ_le_of_lt tail)
      rw [List.foldr_cons, List.length_cons, Nat.pow_succ, Nat.mul_comm (base ^ _)]
      rw [Nat.mul_succ] at scaled
      omega

theorem lt_pow_of_formatUint_length {base width u : Nat} (twoAtLeast : 2 ≤ base)
    (exact : (formatUint base width u).length = width) : u < base ^ width := by
  have digitsSmall := integerDigits_lt twoAtLeast u u le_rfl
  have short : (integerDigits base u u).length ≤ width := by
    simp only [formatUint, List.length_append, List.length_replicate, List.length_map,
      List.length_reverse] at exact
    omega
  calc u = (integerDigits base u u).foldr (fun d value => base * value + d) 0 :=
        (integerDigits_value base u u).symm
    _ < base ^ (integerDigits base u u).length := digits_value_lt digitsSmall
    _ ≤ base ^ width := Nat.pow_le_pow_right (by omega) short

theorem digitValue_lt {base : Nat} {c : UInt8} (member : c ∈ ldigits.take base) (hex : base ≤ 16) :
    (fromHexChar c).getD 0 < base := by
  have table : ∀ b < 17, ∀ c ∈ ldigits.take b, (fromHexChar c).getD 0 < b := by decide
  exact table base (by omega) c member

theorem readDigits_append_eq (base : Nat) (front back : Bytes) :
    readDigits base (front ++ back) = base ^ back.length * readDigits base front +
      readDigits base back := by
  induction back generalizing front with
  | nil => simp [readDigits]
  | cons c rest ih =>
      have last (text : Bytes) :
          readDigits base (text ++ [c]) = base * readDigits base text + (fromHexChar c).getD 0 := by
        rw [readDigits_append]
        rfl
      have one : readDigits base [c] = (fromHexChar c).getD 0 := by simp [readDigits]
      rw [← List.singleton_append, ← List.append_assoc, ih, ih [c], last, one,
        List.singleton_append, List.length_cons, Nat.pow_succ]
      ring

theorem readDigits_lt {base : Nat} (hex : base ≤ 16) {text : Bytes}
    (digits : ∀ c ∈ text, c ∈ ldigits.take base) : readDigits base text < base ^ text.length := by
  induction text with
  | nil => simp [readDigits]
  | cons c rest ih =>
      have digit := digitValue_lt (digits c (List.mem_cons_self c rest)) hex
      have restSmall := ih fun d member => digits d (List.mem_cons_of_mem c member)
      have one : readDigits base [c] = (fromHexChar c).getD 0 := by simp [readDigits]
      rw [← List.singleton_append, readDigits_append_eq, one, List.length_append,
        List.length_singleton, Nat.pow_add, Nat.pow_one]
      calc base ^ rest.length * (fromHexChar c).getD 0 + readDigits base rest
          < base ^ rest.length * ((fromHexChar c).getD 0 + 1) := by rw [Nat.mul_succ]; omega
        _ ≤ base ^ rest.length * base := Nat.mul_le_mul_left _ digit
        _ = base * base ^ rest.length := Nat.mul_comm _ _

theorem readDigits_take {base : Nat} (hex : base ≤ 16) {text : Bytes}
    (digits : ∀ c ∈ text, c ∈ ldigits.take base) (j : Nat) :
    readDigits base (text.take j) = readDigits base text / base ^ (text.length - j) := by
  have restSmall : readDigits base (text.drop j) < base ^ (text.length - j) := by
    rw [← List.length_drop]
    exact readDigits_lt hex fun c member => digits c (List.mem_of_mem_drop member)
  have whole := readDigits_append_eq base (text.take j) (text.drop j)
  rw [List.take_append_drop, List.length_drop] at whole
  rw [whole, Nat.mul_add_div (Nat.pos_of_ne_zero fun zero => by simp [zero] at restSmall),
    Nat.div_eq_of_lt restSmall, Nat.add_zero]

/-! ### `%x` of bytes -/

theorem nibbles (c : UInt8) : (c >>> 4).toNat = c.toNat / 16 ∧ (c &&& 0xF).toNat = c.toNat % 16 := by
  constructor
  · rw [toNat_shiftRight, Nat.shiftRight_eq_div_pow]
    rfl
  · rw [UInt8.and_toNat]
    exact Nat.and_pow_two_sub_one_eq_mod c.toNat 4

theorem formatHexBytes_cons (c : UInt8) (rest : Bytes) :
    formatHexBytes (c :: rest) =
      digitByte (c.toNat / 16) :: digitByte (c.toNat % 16) :: formatHexBytes rest := by
  rw [formatHexBytes, List.flatMap_cons, (nibbles c).1, (nibbles c).2]
  rfl

/-- `%x` of `n` bytes is `2 n` lowercase hex digits that `hex.DecodeString`
turns back into the same bytes. -/
theorem formatHexBytes_decodes (bytes : Bytes) :
    (formatHexBytes bytes).length = 2 * bytes.length ∧
      (∀ c ∈ formatHexBytes bytes, c ∈ ldigits.take 16) ∧
      hexDecode (formatHexBytes bytes) = some bytes := by
  induction bytes with
  | nil => exact ⟨rfl, by simp [formatHexBytes], rfl⟩
  | cons c rest ih =>
      have byteSized : c.toNat < 256 := c.toNat_lt_size
      obtain ⟨length, lower, decodes⟩ := ih
      refine ⟨by simp [formatHexBytes_cons, length]; omega, ?_, ?_⟩
      · intro d member
        simp only [formatHexBytes_cons, List.mem_cons] at member
        rcases member with rfl | rfl | later
        · exact digitByte_mem (by omega) le_rfl
        · exact digitByte_mem (Nat.mod_lt _ (by omega)) le_rfl
        · exact lower d later
      · have whole : byte (16 * (c.toNat / 16) + c.toNat % 16) = c := by
          rw [byte_eq_iff]
          omega
        rw [formatHexBytes_cons, hexDecode, fromHexChar_digitByte _ (by omega),
          fromHexChar_digitByte _ (by omega), decodes]
        exact congrArg (fun b => some (b :: rest)) whole

/-! ### Padding -/

theorem padRight_length (width : Nat) (s : Bytes) :
    (padRight width s).length = s.length + (width - runeCount s) := by
  simp [padRight]

theorem width_le_padRight_length (width : Nat) (s : Bytes) : width ≤ (padRight width s).length := by
  have counted := runeCount_le_length s
  rw [padRight_length]
  omega

theorem padRight_of_ascii {width : Nat} {s : Bytes} (ascii : ∀ c ∈ s, c < 0x80) :
    padRight width s = s ++ List.replicate (width - s.length) (byte 32) := by
  rw [padRight, runeCount_of_ascii ascii]

theorem padRight_eq_of_length {width : Nat} {s : Bytes} (exact : (padRight width s).length = width) :
    padRight width s = s ++ List.replicate (width - s.length) (byte 32) := by
  have counted := runeCount_le_length s
  rw [padRight_length] at exact
  have oneRuneAByte : runeCount s = s.length := by omega
  rw [padRight, oneRuneAByte]

/-- `%-<width>s` of a string pads to `width` characters, not bytes. -/
theorem padRight_utf8 (width : Nat) (text : String) :
    padRight width (utf8 text) = utf8 text ++ List.replicate (width - text.length) (byte 32) := by
  rw [padRight, runeCount_utf8]

end Ipsc2Hbrp.Go
