/-
What the two versions of `Config.Validate` in `internal/config` share: the log
levels, the errors, the IPSC section with the checks that end both versions,
and the six checks of one station's settings, which the single-master version
makes of `HBRP` and the multi-network version of every `MMDVM` entry.

`netlink.LinkByName` is the parameter `linkByName`, true when the interface is
found. The key pattern `^[0-9a-fA-F]{0,40}$` is read as at most 40 characters
from the class, each one byte.
-/
import Ipsc2Hbrp.Go.Float

namespace Ipsc2Hbrp.Config

open Go

/-! ### Log levels and errors -/

def logLevelDebug : Bytes := utf8 "debug"

def logLevelInfo : Bytes := utf8 "info"

def logLevelWarn : Bytes := utf8 "warn"

def logLevelError : Bytes := utf8 "error"

def logLevels : List Bytes := [logLevelDebug, logLevelInfo, logLevelWarn, logLevelError]

/-- The section a station error names: `HBRP` in the single-master version,
`MMDVM` in the multi-network one. -/
inductive Station
  | hbrp
  | mmdvm
  deriving DecidableEq, Repr

def Station.name : Station → String
  | hbrp => "HBRP"
  | mmdvm => "MMDVM"

/-- The `Err…` values of both versions; `invalidCallsign .hbrp` is
`ErrInvalidHBRPCallsign`, `invalidCallsign .mmdvm` is `ErrInvalidMMDVMCallsign`. -/
inductive ConfigError
  | invalidLogLevel
  | noMMDVMNetworks
  | invalidMMDVMName
  | duplicateMMDVMName
  | invalidCallsign (station : Station)
  | invalidColorCode (station : Station)
  | invalidLongitude (station : Station)
  | invalidLatitude (station : Station)
  | invalidMasterServer (station : Station)
  | invalidPassword (station : Station)
  | invalidRewriteSlot
  | invalidRewriteRange
  | invalidIPSCInterface
  | invalidIPSCIP
  | invalidIPSCSubnetMask
  | invalidIPSCAuthKey
  deriving DecidableEq, Repr

def ConfigError.message : ConfigError → String
  | invalidLogLevel => "invalid log level provided"
  | noMMDVMNetworks => "at least one MMDVM network must be configured"
  | invalidMMDVMName => "invalid MMDVM network name provided"
  | duplicateMMDVMName => "duplicate MMDVM network name provided"
  | invalidCallsign station => "invalid " ++ station.name ++ " callsign provided"
  | invalidColorCode station => "invalid " ++ station.name ++ " color code provided"
  | invalidLongitude station => "invalid " ++ station.name ++ " longitude provided"
  | invalidLatitude station => "invalid " ++ station.name ++ " latitude provided"
  | invalidMasterServer station => "invalid " ++ station.name ++ " master server provided"
  | invalidPassword station => "invalid " ++ station.name ++ " password provided"
  | invalidRewriteSlot => "invalid rewrite slot (must be 1 or 2)"
  | invalidRewriteRange => "invalid rewrite range (must be >= 1)"
  | invalidIPSCInterface => "invalid IPSC interface provided"
  | invalidIPSCIP => "invalid IPSC IP address provided"
  | invalidIPSCSubnetMask => "invalid IPSC subnet mask provided"
  | invalidIPSCAuthKey => "invalid IPSC authentication key provided"

instance : DecidableEq (Except ConfigError Unit) := fun left right =>
  match left, right with
  | .ok (), .ok () => isTrue rfl
  | .error x, .error y =>
    if same : x = y then isTrue (same ▸ rfl) else isFalse fun equal => same (Except.error.inj equal)
  | .ok (), .error _ => isFalse fun equal => Except.noConfusion equal
  | .error _, .ok () => isFalse fun equal => Except.noConfusion equal

/-- `if bad { return err }` in front of the rest of a check succeeds exactly
when the condition fails and the rest succeeds. -/
@[simp] theorem guard_eq_ok {bad : Prop} [Decidable bad] {err : ConfigError}
    {rest : Except ConfigError Unit} :
    (if bad then .error err else rest) = .ok () ↔ ¬bad ∧ rest = .ok () := by
  by_cases bad <;> simp [*]

theorem error_of_guard {bad : Prop} [Decidable bad] {err failure : ConfigError}
    {rest : Except ConfigError Unit} (rejected : (if bad then .error err else rest) = .error failure) :
    failure = err ∨ rest = .error failure := by
  by_cases bad
  · rw [if_pos ‹_›] at rejected
    exact .inl (Except.error.inj rejected).symm
  · rw [if_neg ‹_›] at rejected
    exact .inr rejected

theorem bind_eq_ok {first rest : Except ConfigError Unit} :
    (first >>= fun _ => rest) = .ok () ↔ first = .ok () ∧ rest = .ok () := by
  cases first <;> simp [bind, Except.bind]

/-! ### The IPSC section -/

structure IPSCAuth where
  enabled : Bool
  key : Bytes
  deriving DecidableEq, Repr

/-- The IPSC section; `Port` is read by no modelled function. -/
structure IPSC where
  interface : Bytes
  ip : Bytes
  subnetMask : Int
  auth : IPSCAuth
  deriving DecidableEq, Repr

def hexDigits : Bytes := utf8 "0123456789abcdefABCDEF"

/-- `MatchString` of `^[0-9a-fA-F]{0,40}$`. -/
def matchAuthKey (key : Bytes) : Bool :=
  key.length ≤ 40 && key.all fun c => c ∈ hexDigits

def validateIPSC (linkByName : Bytes → Bool) (ipsc : IPSC) : Except ConfigError Unit :=
  if ipsc.interface = [] then .error .invalidIPSCInterface
  else if !linkByName ipsc.interface then .error .invalidIPSCInterface
  else if ipsc.ip = [] then .error .invalidIPSCIP
  else if ipsc.subnetMask < 1 ∨ ipsc.subnetMask > 32 then .error .invalidIPSCSubnetMask
  else if ipsc.auth.enabled ∧ ipsc.auth.key = [] then .error .invalidIPSCAuthKey
  else if !matchAuthKey ipsc.auth.key then .error .invalidIPSCAuthKey
  else .ok ()

@[mk_iff]
structure IPSC.Valid (linkByName : Bytes → Bool) (ipsc : IPSC) : Prop where
  interface : ipsc.interface ≠ []
  found : linkByName ipsc.interface = true
  ip : ipsc.ip ≠ []
  subnetMask : 1 ≤ ipsc.subnetMask ∧ ipsc.subnetMask ≤ 32
  keyRequired : ipsc.auth.enabled = true → ipsc.auth.key ≠ []
  keyLength : ipsc.auth.key.length ≤ 40
  keyDigits : ∀ c ∈ ipsc.auth.key, c ∈ hexDigits

instance (linkByName : Bytes → Bool) (ipsc : IPSC) : Decidable (ipsc.Valid linkByName) :=
  decidable_of_iff _ (IPSC.valid_iff linkByName ipsc).symm

theorem validateIPSC_eq_ok_iff (linkByName : Bytes → Bool) (ipsc : IPSC) :
    validateIPSC linkByName ipsc = .ok () ↔ ipsc.Valid linkByName := by
  rw [IPSC.valid_iff, validateIPSC]
  simp only [guard_eq_ok, matchAuthKey, Bool.not_eq_true', Bool.not_eq_false, Bool.and_eq_true,
    decide_eq_true_eq, List.all_eq_true, not_or, not_and, not_lt, and_true]

/-! ### One station's settings -/

def float180 : Float64 := ⟨0x4066800000000000⟩

def float90 : Float64 := ⟨0x4056800000000000⟩

example : formatFloat float180 = utf8 "180.000000" ∧ formatFloat (-float90) = utf8 "-90.000000" := by
  decide

/-- The coordinate checks: neither `longitude < -180 || longitude > 180` nor
`latitude < -90 || latitude > 90`. A NaN passes both. -/
def InRange (latitude longitude : Float64) : Prop :=
  ¬(longitude < -float180 ∨ longitude > float180) ∧ ¬(latitude < -float90 ∨ latitude > float90)

instance (latitude longitude : Float64) : Decidable (InRange latitude longitude) :=
  inferInstanceAs (Decidable (¬_ ∧ ¬_))

theorem abs_bounds_value : |float180.value| = 180 ∧ |float90.value| = 90 := by
  have bits : float180.magnitude = 1030 * 2 ^ 52 + 0x6800000000000 ∧
      float90.magnitude = 1029 * 2 ^ 52 + 0x6800000000000 := by decide
  rw [Float64.abs_value, Float64.abs_value, bits.1, bits.2, Float64.unitsOf, Float64.unitsOf]
  norm_num

/-- A check `x < -b || x > b` against either bound passes a NaN or a finite
value no further from zero than the bound. -/
theorem bound_check_iff {b : Float64} (bound : b = float180 ∨ b = float90) (x : Float64) :
    ¬(x < -b ∨ x > b) ↔ x.isNaN ∨ x.isFinite ∧ |x.value| ≤ |b.value| := by
  have facts : b.isFinite = true ∧ (-b).isNaN = false ∧ b.negative = false ∧
      (-b).orderKey = -b.orderKey := by
    rcases bound with rfl | rfl <;> decide
  exact Float64.not_outside_iff_value facts.1 facts.2.1 facts.2.2.1 facts.2.2.2

/-- The six checks both versions make of one station, in the source's order. -/
def validateStation (station : Station) (callsign : Bytes) (colorCode : UInt8)
    (latitude longitude : Float64) (masterServer password : Bytes) : Except ConfigError Unit :=
  if callsign = [] then .error (.invalidCallsign station)
  else if colorCode > 15 then .error (.invalidColorCode station)
  else if longitude < -float180 ∨ longitude > float180 then .error (.invalidLongitude station)
  else if latitude < -float90 ∨ latitude > float90 then .error (.invalidLatitude station)
  else if masterServer = [] then .error (.invalidMasterServer station)
  else if password = [] then .error (.invalidPassword station)
  else .ok ()

theorem validateStation_eq_ok_iff (station : Station) (callsign : Bytes) (colorCode : UInt8)
    (latitude longitude : Float64) (masterServer password : Bytes) :
    validateStation station callsign colorCode latitude longitude masterServer password = .ok () ↔
      callsign ≠ [] ∧ colorCode ≤ 15 ∧ InRange latitude longitude ∧ masterServer ≠ [] ∧
        password ≠ [] := by
  simp only [validateStation, guard_eq_ok, InRange, UInt8.not_lt, and_true, and_assoc]

theorem validateStation_error (station : Station) (callsign : Bytes) (colorCode : UInt8)
    (latitude longitude : Float64) (masterServer password : Bytes) {err : ConfigError}
    (rejected : validateStation station callsign colorCode latitude longitude masterServer
      password = .error err) :
    err ∈ [.invalidCallsign station, .invalidColorCode station, .invalidLongitude station,
      .invalidLatitude station, .invalidMasterServer station, .invalidPassword station] := by
  unfold validateStation at rejected
  iterate 6
    rcases error_of_guard rejected with rfl | rejected
    · simp
  cases rejected

end Ipsc2Hbrp.Config
