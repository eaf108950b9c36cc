/-
The two versions of `Config.Validate` side by side. The multi-network version
repeats the single-master one for each network, so a single-master
configuration moved into the new format, as one named network with no rewrite
rules, is checked exactly as before: the same checks in the same order, with
each `ErrInvalidHBRP…` replaced by its `ErrInvalidMMDVM…`.
-/
import Ipsc2Hbrp.Config.Single
import Ipsc2Hbrp.Config.Multi

namespace Ipsc2Hbrp.Config

open Go

def ConfigError.withStation (station : Station) : ConfigError → ConfigError
  | invalidCallsign _ => invalidCallsign station
  | invalidColorCode _ => invalidColorCode station
  | invalidLongitude _ => invalidLongitude station
  | invalidLatitude _ => invalidLatitude station
  | invalidMasterServer _ => invalidMasterServer station
  | invalidPassword _ => invalidPassword station
  | other => other

/-- A single-master configuration as a multi-network one: its station as the one
network `name`, with no rewrite rules. -/
def Single.Config.toMulti (name : Bytes) (c : Single.Config) : Multi.Config :=
  { logLevel := c.logLevel
    mmdvm :=
      [{ name, callsign := c.hbrp.callsign, colorCode := c.hbrp.colorCode,
         latitude := c.hbrp.latitude, longitude := c.hbrp.longitude,
         masterServer := c.hbrp.masterServer, password := c.hbrp.password,
         tgRewrites := [], pcRewrites := [], typeRewrites := [], srcRewrites := [] }]
    ipsc := c.ipsc }

theorem mapError_ite {bad : Prop} [Decidable bad] (f : ConfigError → ConfigError) (err : ConfigError)
    (rest : Except ConfigError Unit) :
    (if bad then .error err else rest).mapError f = if bad then .error (f err) else rest.mapError f := by
  split_ifs <;> rfl

theorem mapError_bind (f : ConfigError → ConfigError) (first rest : Except ConfigError Unit) :
    (first >>= fun _ => rest).mapError f = first.mapError f >>= fun _ => rest.mapError f := by
  cases first <;> rfl

theorem validateStation_withStation (station other : Station) (callsign : Bytes)
    (colorCode : UInt8) (latitude longitude : Float64) (masterServer password : Bytes) :
    (validateStation station callsign colorCode latitude longitude masterServer password).mapError
        (ConfigError.withStation other) =
      validateStation other callsign colorCode latitude longitude masterServer password := by
  simp only [validateStation, mapError_ite]
  rfl

theorem validateIPSC_withStation (station : Station) (linkByName : Bytes → Bool) (ipsc : IPSC) :
    (validateIPSC linkByName ipsc).mapError (ConfigError.withStation station) =
      validateIPSC linkByName ipsc := by
  simp only [validateIPSC, mapError_ite]
  rfl

/-- Moving a single-master configuration into the multi-network format as one
named network with no rewrite rules keeps what `Validate` returns, up to the
section an error names. -/
theorem validate_toMulti (linkByName : Bytes → Bool) (c : Single.Config) {name : Bytes}
    (named : name ≠ []) :
    (c.toMulti name).validate linkByName =
      (c.validate linkByName).mapError (ConfigError.withStation .mmdvm) := by
  have network : Multi.validateNetworks [] (c.toMulti name).mmdvm =
      validateStation .mmdvm c.hbrp.callsign c.hbrp.colorCode c.hbrp.latitude c.hbrp.longitude
        c.hbrp.masterServer c.hbrp.password := by
    simp only [Single.Config.toMulti, Multi.validateNetworks, if_neg named, List.not_mem_nil,
      if_false, Multi.validateRewrites, Multi.validateRules]
    cases validateStation .mmdvm c.hbrp.callsign c.hbrp.colorCode c.hbrp.latitude c.hbrp.longitude
      c.hbrp.masterServer c.hbrp.password <;> rfl
  rw [Multi.Config.validate, Single.Config.validate, mapError_ite, mapError_bind,
    validateStation_withStation, validateIPSC_withStation, network]
  rfl

def colorCodeSixteen : Single.Config :=
  { logLevel := utf8 "info"
    hbrp :=
      { callsign := utf8 "N0CALL", id := 311860, rxFreq := 449000000, txFreq := 444000000,
        txPower := 50, colorCode := 16, latitude := ⟨0x4041800000000000⟩,
        longitude := ⟨0xC058400000000000⟩, height := 30, location := [], description := [],
        url := [], masterServer := utf8 "master.example.com", password := utf8 "s3cret" }
    ipsc :=
      { interface := utf8 "ipsc0", ip := utf8 "10.10.250.1", subnetMask := 24,
        auth := { enabled := false, key := [] } } }

theorem validate_toMulti_colorCodeSixteen :
    utf8 "BM" ≠ [] ∧
      (colorCodeSixteen.toMulti (utf8 "BM")).validate (fun _ => true) =
        (colorCodeSixteen.validate (fun _ => true)).mapError (ConfigError.withStation .mmdvm) :=
  ⟨by decide, validate_toMulti (fun _ => true) colorCodeSixteen (by decide)⟩

example : colorCodeSixteen.validate (fun _ => true) = .error (.invalidColorCode .hbrp) := by decide

end Ipsc2Hbrp.Config
