/-
What a master reads from the latitude and longitude fields of the RPTC packet.

`sendRPTC` prints the latitude with `%-08f` and keeps the first 8 bytes, the
longitude with `%-09f` and keeps 9. For a coordinate that `Validate` accepts
and that is not a NaN, the kept text is a decimal with four to six places, and
it is the coordinate to within `10 ^ -4` degrees: `%f` rounds to half a
millionth, and the cut drops less than `10 ^ -4`.
-/
import Ipsc2Hbrp.HBRP.Layout

namespace Ipsc2Hbrp.Client

open Go Config Config.Single

/-! ### Reading a coordinate field -/

def isDecimalDigit (c : UInt8) : Bool := c ∈ ldigits.take 10

/-- Digits, a `.`, digits and then only spaces: the number they spell and the
count of decimals. -/
def readUnsigned (text : Bytes) : Option (ℚ × Nat) :=
  let whole := text.takeWhile isDecimalDigit
  match text.drop whole.length with
  | c :: rest =>
    let fraction := rest.takeWhile isDecimalDigit
    if c = byte 46 ∧ whole ≠ [] ∧ fraction ≠ [] ∧ (rest.drop fraction.length).all (· == byte 32) then
      some ((readDigits 10 whole : ℚ) + (readDigits 10 fraction : ℚ) / 10 ^ fraction.length,
        fraction.length)
    else none
  | [] => none

/-- The number a coordinate field spells for a master, with its count of
decimals: an optional `-`, digits, a `.`, digits, then spaces to the end of the
field; other text spells none. -/
def readCoordinate : Bytes → Option (ℚ × Nat)
  | c :: rest =>
    if c = byte 45 then (readUnsigned rest).map fun read => (-read.1, read.2)
    else readUnsigned (c :: rest)
  | [] => none

theorem takeWhile_digits {whole rest : Bytes} (digits : ∀ c ∈ whole, c ∈ ldigits.take 10)
    (stop : ∀ c ∈ rest.head?, isDecimalDigit c = false) :
    (whole ++ rest).takeWhile isDecimalDigit = whole := by
  rw [List.takeWhile_append_of_pos fun c member => by simp [isDecimalDigit, digits c member]]
  cases rest with
  | nil => simp
  | cons c rest => simp [stop c rfl]

theorem readUnsigned_decimal {whole fraction : Bytes} (pad : Nat)
    (wholeDigits : ∀ c ∈ whole, c ∈ ldigits.take 10)
    (fractionDigits : ∀ c ∈ fraction, c ∈ ldigits.take 10) (wholeNonempty : whole ≠ [])
    (fractionNonempty : fraction ≠ []) :
    readUnsigned (whole ++ byte 46 :: (fraction ++ List.replicate pad (byte 32))) =
      some ((readDigits 10 whole : ℚ) + (readDigits 10 fraction : ℚ) / 10 ^ fraction.length,
        fraction.length) := by
  have spaces : ∀ c ∈ (List.replicate pad (byte 32)).head?, isDecimalDigit c = false := by
    intro c member
    rw [List.head?_replicate] at member
    split_ifs at member
    · cases member
    · cases member
      decide
  unfold readUnsigned
  rw [takeWhile_digits wholeDigits (by intro c member; cases member; decide)]
  dsimp only
  rw [List.drop_left]
  dsimp only
  rw [takeWhile_digits fractionDigits spaces, List.drop_left]
  simp [wholeNonempty, fractionNonempty, List.all_eq_true, List.mem_replicate]

theorem readCoordinate_of_digit {c : UInt8} {rest : Bytes} (digit : c ∈ ldigits.take 10) :
    readCoordinate (c :: rest) = readUnsigned (c :: rest) := by
  have notMinus : c ≠ byte 45 := by
    rintro rfl
    exact absurd digit (by decide)
  simp [readCoordinate, notMinus]

/-! ### The kept bytes of `%-<width>f` -/

theorem take_append_replicate {front back : Bytes} {width : Nat} (room : front.length ≤ width) :
    (front ++ back ++ List.replicate (width - (front.length + back.length)) (byte 32)).take width =
      front ++ (back.take (width - front.length) ++
        List.replicate (width - front.length - back.length) (byte 32)) := by
  rw [List.append_assoc, List.take_append_eq_append_take, List.take_of_length_le room,
    List.take_append_eq_append_take, List.take_replicate]
  congr 3
  omega

def signText (x : Float64) : Bytes := if x.negative then [byte 45] else []

def wholeText (x : Float64) : Bytes := formatUint 10 1 (x.micros / 10 ^ 6)

def fractionText (x : Float64) : Bytes := formatUint 10 6 (x.micros % 10 ^ 6)

def frontLength (x : Float64) : Nat := (signText x).length + (wholeText x).length + 1

theorem formatFloat_parts {x : Float64} (finite : x.isFinite = true) :
    formatFloat x = signText x ++ wholeText x ++ [byte 46] ++ fractionText x := by
  rw [Float64.formatFloat_of_isFinite finite]
  rfl

theorem wholeText_digits (x : Float64) : ∀ c ∈ wholeText x, c ∈ ldigits.take 10 :=
  formatUint_digits 1 _ (by decide : 2 ≤ 10) (by decide : 10 ≤ 16)

theorem fractionText_digits (x : Float64) : ∀ c ∈ fractionText x, c ∈ ldigits.take 10 :=
  formatUint_digits 6 _ (by decide : 2 ≤ 10) (by decide : 10 ≤ 16)

theorem fractionText_length (x : Float64) : (fractionText x).length = 6 :=
  (formatUint_spells (by decide) (by decide) (by decide) (Nat.mod_lt _ (by decide))).1

theorem readDigits_wholeText (x : Float64) : readDigits 10 (wholeText x) = x.micros / 10 ^ 6 :=
  readDigits_formatUint 1 _ (by decide) (by decide)

theorem readDigits_take_fractionText (x : Float64) (j : Nat) :
    readDigits 10 ((fractionText x).take j) = x.micros % 10 ^ 6 / 10 ^ (6 - j) := by
  rw [readDigits_take (by decide) (fractionText_digits x), fractionText_length, fractionText,
    readDigits_formatUint 6 _ (by decide) (by decide)]

theorem wholeText_ne_nil (x : Float64) : wholeText x ≠ [] := by
  apply List.ne_nil_of_length_pos
  simp only [wholeText, formatUint, List.length_append, List.length_replicate]
  omega

theorem ascii_formatFloat {x : Float64} (finite : x.isFinite = true) :
    ∀ c ∈ formatFloat x, c < 0x80 := by
  have digitAscii : ∀ c ∈ ldigits.take 10, c < 0x80 := by decide
  intro c member
  simp only [formatFloat_parts finite, List.mem_append, List.mem_singleton] at member
  rcases member with ((signed | whole) | rfl) | fraction
  · unfold signText at signed
    split_ifs at signed
    · rw [List.mem_singleton.mp signed]
      decide
    · cases signed
  · exact digitAscii c (wholeText_digits x c whole)
  · decide
  · exact digitAscii c (fractionText_digits x c fraction)

theorem take_padRight_formatFloat {x : Float64} (finite : x.isFinite = true) {width : Nat}
    (room : frontLength x ≤ width) :
    (padRight width (formatFloat x)).take width =
      signText x ++ (wholeText x ++ byte 46 :: ((fractionText x).take (width - frontLength x) ++
        List.replicate (width - frontLength x - 6) (byte 32))) := by
  have front : (signText x ++ wholeText x ++ [byte 46]).length = frontLength x := by
    simp [frontLength, Nat.add_assoc]
  rw [padRight_of_ascii (ascii_formatFloat finite), formatFloat_parts finite, List.length_append,
    take_append_replicate (by omega), fractionText_length, front]
  simp [List.append_assoc]

/-- The number `places` decimals of `%f` spell, with `%f`'s sign. -/
def keptValue (x : Float64) (places : Nat) : ℚ :=
  let magnitude := ((x.micros / 10 ^ 6 : Nat) : ℚ) +
    ((x.micros % 10 ^ 6 / 10 ^ (6 - places) : Nat) : ℚ) / 10 ^ places
  if x.negative then -magnitude else magnitude

theorem readCoordinate_take_padRight {x : Float64} (finite : x.isFinite = true) {width : Nat}
    (room : frontLength x < width) :
    readCoordinate ((padRight width (formatFloat x)).take width) =
      some (keptValue x (min (width - frontLength x) 6), min (width - frontLength x) 6) := by
  have keptDigits : ∀ c ∈ (fractionText x).take (width - frontLength x), c ∈ ldigits.take 10 :=
    fun c member => fractionText_digits x c (List.mem_of_mem_take member)
  have keptLength : ((fractionText x).take (width - frontLength x)).length =
      min (width - frontLength x) 6 := by
    rw [List.length_take, fractionText_length]
  have keptNonempty : (fractionText x).take (width - frontLength x) ≠ [] := by
    apply List.ne_nil_of_length_pos
    omega
  have unsigned := readUnsigned_decimal (width - frontLength x - 6) (wholeText_digits x)
    keptDigits (wholeText_ne_nil x) keptNonempty
  rw [keptLength, readDigits_wholeText, readDigits_take_fractionText] at unsigned
  have cut : 6 - (width - frontLength x) = 6 - min (width - frontLength x) 6 := by omega
  rw [take_padRight_formatFloat finite room.le, keptValue]
  unfold signText
  by_cases negative : x.negative = true
  · simp only [negative, if_true, List.singleton_append, readCoordinate, unsigned, cut]
    rfl
  · obtain ⟨first, others, wholeCons⟩ := List.exists_cons_of_ne_nil (wholeText_ne_nil x)
    have firstDigit : first ∈ ldigits.take 10 := wholeText_digits x first (by simp [wholeCons])
    simp only [negative, if_false, Bool.false_eq_true, List.nil_append]
    rw [wholeCons, List.cons_append, readCoordinate_of_digit firstDigit, ← List.cons_append,
      ← wholeCons, unsigned, cut]

/-- The kept bytes of `%-<width>f` of a finite value no further from zero than
`bound`, when `width` leaves room for `bound`'s digits and four decimals, are a
decimal with four to six places that reads back within `10 ^ -4` of the value. -/
theorem readCoordinate_field {x : Float64} {width bound : Nat} (finite : x.isFinite = true)
    (near : |x.value| ≤ bound) (fits : bound < 10 ^ (width - 6)) (wide : 7 ≤ width) :
    ∃ v places, readCoordinate ((padRight width (formatFloat x)).take width) = some (v, places) ∧
      4 ≤ places ∧ places ≤ 6 ∧ |v - x.value| < 1 / 10 ^ 4 := by
  have wholeSmall : x.micros / 10 ^ 6 < 10 ^ (width - 6) :=
    Nat.lt_of_le_of_lt (Nat.div_le_of_le_mul (by rw [Nat.mul_comm]; exact Float64.micros_le near))
      fits
  have wholeShort : (wholeText x).length ≤ width - 6 :=
    formatUint_length_le (by decide) (by omega) (by omega) wholeSmall
  have signShort : (signText x).length ≤ 1 := by unfold signText; split_ifs <;> simp
  have room : frontLength x + 4 ≤ width := by unfold frontLength; omega
  refine ⟨_, _, readCoordinate_take_padRight finite (by omega), by omega, by omega, ?_⟩
  have close := @Float64.cut_micros_near x (min (width - frontLength x) 6) (by omega) (by omega)
  rw [Float64.value_eq_sign x, keptValue]
  split_ifs
  · rwa [neg_sub_neg, abs_sub_comm]
  · exact close

/-! ### The coordinates of an accepted configuration -/

/-- For a configuration `Validate` accepts, a latitude or longitude that is not a
NaN goes out as a decimal with at least four places that reads back within
`10 ^ -4` degrees of it. -/
theorem coordinate_fields_read_back (linkByName : Bytes → Bool) {c : Config}
    (valid : c.validate linkByName = .ok ()) (latitudeNumber : c.hbrp.latitude.isNaN = false)
    (longitudeNumber : c.hbrp.longitude.isNaN = false) :
    (∃ v places, readCoordinate ((padRight 8 (formatFloat c.hbrp.latitude)).take 8) =
        some (v, places) ∧ 4 ≤ places ∧ places ≤ 6 ∧ |v - c.hbrp.latitude.value| < 1 / 10 ^ 4) ∧
      ∃ v places, readCoordinate ((padRight 9 (formatFloat c.hbrp.longitude)).take 9) =
        some (v, places) ∧ 4 ≤ places ∧ places ≤ 6 ∧ |v - c.hbrp.longitude.value| < 1 / 10 ^ 4 := by
  have checks := ((Config.validate_eq_ok_iff linkByName c).mp valid).inRange
  rw [InRange, bound_check_iff (.inl rfl), bound_check_iff (.inr rfl), abs_bounds_value.1,
    abs_bounds_value.2, latitudeNumber, longitudeNumber] at checks
  obtain ⟨⟨longitudeFinite, longitudeNear⟩, ⟨latitudeFinite, latitudeNear⟩⟩ :=
    And.imp (Or.resolve_left · Bool.false_ne_true) (Or.resolve_left · Bool.false_ne_true) checks
  exact ⟨readCoordinate_field latitudeFinite (by exact_mod_cast latitudeNear) (by decide) (by decide),
    readCoordinate_field longitudeFinite (by exact_mod_cast longitudeNear) (by decide) (by decide)⟩

theorem coordinate_fields_read_back_sample :
    sampleConfig.validate (fun _ => true) = .ok () ∧ sampleConfig.hbrp.latitude.isNaN = false ∧
      sampleConfig.hbrp.longitude.isNaN = false ∧
      ((∃ v places, readCoordinate ((padRight 8 (formatFloat sampleConfig.hbrp.latitude)).take 8) =
          some (v, places) ∧ 4 ≤ places ∧ places ≤ 6 ∧
            |v - sampleConfig.hbrp.latitude.value| < 1 / 10 ^ 4) ∧
        ∃ v places, readCoordinate ((padRight 9 (formatFloat sampleConfig.hbrp.longitude)).take 9) =
          some (v, places) ∧ 4 ≤ places ∧ places ≤ 6 ∧
            |v - sampleConfig.hbrp.longitude.value| < 1 / 10 ^ 4) :=
  ⟨by decide, rfl, rfl, coordinate_fields_read_back (fun _ => true) (by decide) rfl rfl⟩

end Ipsc2Hbrp.Client
