/-
The fixed layout of the RPTC configuration packet, and when `sendRPTC` keeps
to it.

The protocol gives each of the fifteen fields a slot of fixed width, 306
bytes in all. `sendRPTC` cuts the coordinates to their widths but only pads
the other fields: `%-20s` and `%09d` never truncate, and `Validate` bounds
no length. Under `FitsRPTC` every field fills its slot exactly; an accepted
configuration with a longer location shifts every later field.
-/
import Ipsc2Hbrp.HBRP.Packets
import Mathlib.Data.List.GetD

namespace Ipsc2Hbrp.Client

open Go Config Config.Single

def slot (packet : Bytes) (offset width : Nat) : Bytes := (packet.drop offset).take width

def rptcFields (c : HBRP) : List Bytes :=
  [utf8 "RPTC", padRight 8 c.callsign, formatUint 16 8 c.id.toNat, formatUint 10 9 c.rxFreq,
    formatUint 10 9 c.txFreq, formatUint 10 2 c.txPower.toNat, formatUint 10 2 c.colorCode.toNat,
    (padRight 8 (formatFloat c.latitude)).take 8, (padRight 9 (formatFloat c.longitude)).take 9,
    formatUint 10 3 c.height.toNat, padRight 20 c.location, padRight 20 c.description,
    padRight 124 c.url, padRight 40 [], padRight 40 []]

def rptcWidths : List Nat := [4, 8, 8, 9, 9, 2, 2, 8, 9, 3, 20, 20, 124, 40, 40]

/-- Where the protocol puts each field of `c`: 306 bytes, each field in its
slot, text left-justified and padded with spaces. -/
structure RPTCLayout (c : HBRP) (packet : Bytes) : Prop where
  length : packet.length = 306
  tag : slot packet 0 4 = utf8 "RPTC"
  callsign : slot packet 4 8 = c.callsign ++ List.replicate (8 - c.callsign.length) (byte 32)
  id : Spells 16 8 c.id.toNat (slot packet 12 8)
  rxFreq : Spells 10 9 c.rxFreq (slot packet 20 9)
  txFreq : Spells 10 9 c.txFreq (slot packet 29 9)
  txPower : Spells 10 2 c.txPower.toNat (slot packet 38 2)
  colorCode : Spells 10 2 c.colorCode.toNat (slot packet 40 2)
  latitude : slot packet 42 8 = (padRight 8 (formatFloat c.latitude)).take 8
  longitude : slot packet 50 9 = (padRight 9 (formatFloat c.longitude)).take 9
  height : Spells 10 3 c.height.toNat (slot packet 59 3)
  location : slot packet 62 20 = c.location ++ List.replicate (20 - c.location.length) (byte 32)
  description :
    slot packet 82 20 = c.description ++ List.replicate (20 - c.description.length) (byte 32)
  url : slot packet 102 124 = c.url ++ List.replicate (124 - c.url.length) (byte 32)
  spaces : slot packet 226 40 = List.replicate 40 (byte 32)
  moreSpaces : slot packet 266 40 = List.replicate 40 (byte 32)

/-- What the slots need and `Validate` does not check: ASCII text no longer
than its slot, and numbers with no more digits than theirs. -/
structure FitsRPTC (c : HBRP) : Prop where
  callsign : c.callsign.length ≤ 8
  location : c.location.length ≤ 20
  description : c.description.length ≤ 20
  url : c.url.length ≤ 124
  ascii : ∀ b ∈ c.callsign ++ c.location ++ c.description ++ c.url, b < 0x80
  rxFreq : c.rxFreq < 10 ^ 9
  txFreq : c.txFreq < 10 ^ 9
  txPower : c.txPower.toNat < 10 ^ 2
  height : c.height.toNat < 10 ^ 3

theorem sendRPTC_connTX (h : HBRPClient) :
    (sendRPTC h).connTX = h.connTX ++ [(rptcFields h.config.hbrp).flatten] := by
  simp only [sendRPTC, rptcFields, List.flatten, List.append_assoc, List.append_nil, send_connTX]

theorem slot_flatten {fields : List Bytes} {widths : List Nat}
    (sized : fields.map List.length = widths) (k : Nat) :
    slot fields.flatten (widths.take k).sum (widths.getD k 0) = fields.getD k [] := by
  subst sized
  induction fields generalizing k with
  | nil => simp [slot]
  | cons field rest ih =>
      cases k with
      | zero => simp [slot]
      | succ k =>
          simp only [slot, List.flatten, List.map_cons, List.take_succ_cons, List.sum_cons,
            List.getD_cons_succ, List.drop_append] at ih ⊢
          exact ih k

theorem padRight_length_of_ascii {width : Nat} {s : Bytes} (ascii : ∀ c ∈ s, c < 0x80)
    (short : s.length ≤ width) : (padRight width s).length = width := by
  rw [padRight_of_ascii ascii, List.length_append, List.length_replicate]
  omega

theorem take_padRight_length (width : Nat) (s : Bytes) :
    ((padRight width s).take width).length = width := by
  rw [List.length_take]
  exact Nat.min_eq_left (width_le_padRight_length width s)

theorem colorCode_digits {colorCode : UInt8} (valid : colorCode ≤ 15) : colorCode.toNat < 10 ^ 2 := by
  have small : colorCode.toNat ≤ 15 := valid
  omega

theorem rptcFields_widths {c : HBRP} (colorCode : c.colorCode ≤ 15) (fits : FitsRPTC c) :
    (rptcFields c).map List.length = rptcWidths := by
  have ascii := fits.ascii
  simp only [List.mem_append, or_imp, forall_and] at ascii
  have colorCodeDigits := colorCode_digits colorCode
  simp only [rptcFields, List.map_cons, List.map_nil, rptcWidths,
    padRight_length_of_ascii ascii.1.1.1 fits.callsign, (id_spells c.id).1,
    (formatUint_spells (by decide) (by decide) (by decide) fits.rxFreq).1,
    (formatUint_spells (by decide) (by decide) (by decide) fits.txFreq).1,
    (formatUint_spells (by decide) (by decide) (by decide) fits.txPower).1,
    (formatUint_spells (by decide) (by decide) (by decide) colorCodeDigits).1,
    take_padRight_length, (formatUint_spells (by decide) (by decide) (by decide) fits.height).1,
    padRight_length_of_ascii ascii.1.1.2 fits.location,
    padRight_length_of_ascii ascii.1.2 fits.description, padRight_length_of_ascii ascii.2 fits.url]
  rfl

theorem rptcLayout_of_sized {c : HBRP} (sized : (rptcFields c).map List.length = rptcWidths) :
    RPTCLayout c (rptcFields c).flatten := by
  have field := slot_flatten sized
  have lengthAt (k : Nat) : ((rptcFields c).getD k []).length = rptcWidths.getD k 0 := by
    rw [← sized, ← List.getD_map (rptcFields c) [] List.length, List.length_nil]
  have digits {base width u : Nat} (exact : (formatUint base width u).length = width)
      (twoAtLeast : 2 ≤ base) (hex : base ≤ 16) (positive : 0 < width) :
      Spells base width u (formatUint base width u) :=
    formatUint_spells twoAtLeast hex positive (lt_pow_of_formatUint_length twoAtLeast exact)
  exact
    { length := by rw [List.length_flatten, sized]; rfl
      tag := field 0
      callsign := (field 1).trans (padRight_eq_of_length (lengthAt 1))
      id := (field 2).symm ▸ id_spells _
      rxFreq := (field 3).symm ▸ digits (lengthAt 3) (by decide) (by decide) (by decide)
      txFreq := (field 4).symm ▸ digits (lengthAt 4) (by decide) (by decide) (by decide)
      txPower := (field 5).symm ▸ digits (lengthAt 5) (by decide) (by decide) (by decide)
      colorCode := (field 6).symm ▸ digits (lengthAt 6) (by decide) (by decide) (by decide)
      latitude := field 7
      longitude := field 8
      height := (field 9).symm ▸ digits (lengthAt 9) (by decide) (by decide) (by decide)
      location := (field 10).trans (padRight_eq_of_length (lengthAt 10))
      description := (field 11).trans (padRight_eq_of_length (lengthAt 11))
      url := (field 12).trans (padRight_eq_of_length (lengthAt 12))
      spaces := field 13
      moreSpaces := field 14 }

/-- An accepted configuration whose fields fit their slots is sent in the
protocol's layout. -/
theorem sendRPTC_layout (linkByName : Bytes → Bool) {h : HBRPClient}
    (valid : h.config.validate linkByName = .ok ()) (fits : FitsRPTC h.config.hbrp) :
    ∃ packet, (sendRPTC h).connTX = h.connTX ++ [packet] ∧ RPTCLayout h.config.hbrp packet := by
  have colorCode := ((Config.validate_eq_ok_iff linkByName h.config).mp valid).colorCode
  exact ⟨_, sendRPTC_connTX h, rptcLayout_of_sized (rptcFields_widths colorCode fits)⟩

/-- `testHBRPConfig` of `client_test.go`, with the log level, master server and
IPSC section that `Validate` asks for. -/
def sampleConfig : Config :=
  { logLevel := utf8 "info"
    hbrp :=
      { callsign := utf8 "N0CALL", id := 311860, rxFreq := 449000000, txFreq := 444000000,
        txPower := 50, colorCode := 1, latitude := ⟨0x4041800000000000⟩,
        longitude := ⟨0xC058400000000000⟩, height := 30, location := utf8 "Oklahoma",
        description := utf8 "Test Repeater", url := utf8 "https://example.com",
        masterServer := utf8 "master.example.com", password := utf8 "s3cret" }
    ipsc :=
      { interface := utf8 "ipsc0", ip := utf8 "10.10.250.1", subnetMask := 24,
        auth := { enabled := false, key := [] } } }

theorem sendRPTC_layout_sample :
    ∃ packet, (sendRPTC ⟨sampleConfig, []⟩).connTX = [] ++ [packet] ∧
      RPTCLayout sampleConfig.hbrp packet :=
  sendRPTC_layout (fun _ => true) (by decide)
    ⟨by decide, by decide, by decide, by decide, by decide, by decide, by decide, by decide,
      by decide⟩

/-! ### The length tells -/

theorem sum_widths_le {fields : List Bytes} {widths : List Nat}
    (wide : List.Forall₂ (fun field width => width ≤ field.length) fields widths) :
    widths.sum ≤ (fields.map List.length).sum ∧
      ((fields.map List.length).sum = widths.sum → fields.map List.length = widths) := by
  induction wide with
  | nil => simp
  | cons head _ ih =>
      obtain ⟨below, exact⟩ := ih
      simp only [List.map_cons, List.sum_cons, List.cons.injEq]
      exact ⟨by omega, fun total => ⟨by omega, exact (by omega)⟩⟩

theorem rptcFields_wide (c : HBRP) :
    List.Forall₂ (fun field width => width ≤ field.length) (rptcFields c) rptcWidths := by
  simp only [rptcFields, rptcWidths, List.forall₂_cons, width_le_padRight_length,
    width_le_formatUint_length, take_padRight_length, le_refl, List.Forall₂.nil, and_true]
  decide

/-- Whatever the configuration, the RPTC packet is never shorter than the
protocol's 306 bytes, and it is in the protocol's layout exactly when it is
306 bytes long. -/
theorem sendRPTC_length_iff_layout (h : HBRPClient) :
    ∃ packet, (sendRPTC h).connTX = h.connTX ++ [packet] ∧ 306 ≤ packet.length ∧
      (packet.length = 306 ↔ RPTCLayout h.config.hbrp packet) := by
  obtain ⟨below, exact⟩ := sum_widths_le (rptcFields_wide h.config.hbrp)
  rw [← List.length_flatten, show rptcWidths.sum = 306 from rfl] at below exact
  exact ⟨_, sendRPTC_connTX h, below, fun full => rptcLayout_of_sized (exact full),
    RPTCLayout.length⟩

def longLocation : Config :=
  { sampleConfig with
    hbrp := { sampleConfig.hbrp with location := utf8 "Oklahoma City, Oklahoma" } }

set_option maxRecDepth 8000 in
/-- `Validate` accepts `longLocation`, and `sendRPTC` sends it in 309 bytes,
out of the 306-byte layout. -/
theorem sendRPTC_long_location :
    longLocation.validate (fun _ => true) = .ok () ∧
      (sendRPTC ⟨longLocation, []⟩).connTX.map List.length = [309] ∧
      ∀ packet ∈ (sendRPTC ⟨longLocation, []⟩).connTX, ¬RPTCLayout longLocation.hbrp packet := by
  have lengths : (sendRPTC ⟨longLocation, []⟩).connTX.map List.length = [309] := by decide
  refine ⟨by decide, lengths, fun packet member layout => ?_⟩
  have sent : packet.length ∈ [309] := lengths ▸ List.mem_map_of_mem _ member
  simp [layout.length] at sent

end Ipsc2Hbrp.Client
