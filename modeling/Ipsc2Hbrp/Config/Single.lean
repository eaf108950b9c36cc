/-
The single-master version of `internal/config` (the first half of
`config.go`), the one the HBRP client's packets read: one `HBRP` section,
checked by `Validate` for the log level, the six station checks and the IPSC
checks.

Nothing else is checked: not the length of a text field, nor a bound on a
frequency, the power or the height.
-/
import Ipsc2Hbrp.Config.Common

namespace Ipsc2Hbrp.Config.Single

open Go

/-- The `HBRP` section; `RXFreq` and `TXFreq` are Go `uint`s. -/
structure HBRP where
  callsign : Bytes
  id : UInt32
  rxFreq : Nat
  txFreq : Nat
  txPower : UInt8
  colorCode : UInt8
  latitude : Float64
  longitude : Float64
  height : UInt16
  location : Bytes
  description : Bytes
  url : Bytes
  masterServer : Bytes
  password : Bytes
  deriving DecidableEq, Repr

structure Config where
  logLevel : Bytes
  hbrp : HBRP
  ipsc : IPSC
  deriving DecidableEq, Repr

def Config.validate (linkByName : Bytes → Bool) (c : Config) : Except ConfigError Unit :=
  if c.logLevel ∉ logLevels then .error .invalidLogLevel
  else do
    validateStation .hbrp c.hbrp.callsign c.hbrp.colorCode c.hbrp.latitude c.hbrp.longitude
      c.hbrp.masterServer c.hbrp.password
    validateIPSC linkByName c.ipsc

@[mk_iff]
structure Config.Accepted (linkByName : Bytes → Bool) (c : Config) : Prop where
  logLevel : c.logLevel ∈ logLevels
  callsign : c.hbrp.callsign ≠ []
  colorCode : c.hbrp.colorCode ≤ 15
  inRange : InRange c.hbrp.latitude c.hbrp.longitude
  masterServer : c.hbrp.masterServer ≠ []
  password : c.hbrp.password ≠ []
  ipsc : c.ipsc.Valid linkByName

theorem Config.validate_eq_ok_iff (linkByName : Bytes → Bool) (c : Config) :
    c.validate linkByName = .ok () ↔ c.Accepted linkByName := by
  simp only [Config.validate, guard_eq_ok, bind_eq_ok, validateStation_eq_ok_iff,
    validateIPSC_eq_ok_iff, Config.accepted_iff, not_not, and_assoc]

end Ipsc2Hbrp.Config.Single
