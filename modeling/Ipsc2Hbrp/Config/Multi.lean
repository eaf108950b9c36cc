/-
The multi-network version of `internal/config` (the second half of
`config.go`): any number of `MMDVM` entries, each with four lists of rewrite
rules, checked by `Validate` in one loop that remembers the names it has seen.

`Validate` returns `nil` exactly when `Config.Accepted` holds: the names are
nonempty and pairwise distinct, every entry passes the station checks and every
rule names slots 1 or 2 and a nonempty range.
-/
import Ipsc2Hbrp.Config.Common

namespace Ipsc2Hbrp.Config.Multi

open Go

/-! ### The configuration -/

/-- The fields `validateRewrites` reads of a rule; the source's four rule types
all have them, and their talkgroup and ID fields are read by no modelled function. -/
structure RewriteConfig where
  fromSlot : Nat
  toSlot : Nat
  range : Nat
  deriving DecidableEq, Repr

abbrev TGRewriteConfig := RewriteConfig

abbrev PCRewriteConfig := RewriteConfig

abbrev TypeRewriteConfig := RewriteConfig

abbrev SrcRewriteConfig := RewriteConfig

structure MMDVM where
  name : Bytes
  callsign : Bytes
  colorCode : UInt8
  latitude : Float64
  longitude : Float64
  masterServer : Bytes
  password : Bytes
  tgRewrites : List TGRewriteConfig
  pcRewrites : List PCRewriteConfig
  typeRewrites : List TypeRewriteConfig
  srcRewrites : List SrcRewriteConfig
  deriving DecidableEq, Repr

structure Config where
  logLevel : Bytes
  mmdvm : List MMDVM
  ipsc : IPSC
  deriving DecidableEq, Repr

/-! ### `Validate` -/

def validateSlot (slot : Nat) : Bool := slot == 1 || slot == 2

/-- One of the four identical loops of `validateRewrites`. -/
def validateRules : List RewriteConfig → Except ConfigError Unit
  | [] => .ok ()
  | r :: rest =>
    if !validateSlot r.fromSlot || !validateSlot r.toSlot then .error .invalidRewriteSlot
    else if r.range < 1 then .error .invalidRewriteRange
    else validateRules rest

def validateRewrites (h : MMDVM) : Except ConfigError Unit := do
  validateRules h.tgRewrites
  validateRules h.pcRewrites
  validateRules h.typeRewrites
  validateRules h.srcRewrites

/-- The loop over `c.MMDVM`; `names` lists the keys of the source's `names` map,
the names of the entries already checked. -/
def validateNetworks (names : List Bytes) : List MMDVM → Except ConfigError Unit
  | [] => .ok ()
  | h :: rest =>
    if h.name = [] then .error .invalidMMDVMName
    else if h.name ∈ names then .error .duplicateMMDVMName
    else do
      validateStation .mmdvm h.callsign h.colorCode h.latitude h.longitude h.masterServer
        h.password
      validateRewrites h
      validateNetworks (h.name :: names) rest

def Config.validate (linkByName : Bytes → Bool) (c : Config) : Except ConfigError Unit :=
  if c.logLevel ∉ logLevels then .error .invalidLogLevel
  else if c.mmdvm.length = 0 then .error .noMMDVMNetworks
  else do
    validateNetworks [] c.mmdvm
    validateIPSC linkByName c.ipsc

/-! ### What `Validate` accepts -/

def RewriteConfig.Valid (r : RewriteConfig) : Prop :=
  (r.fromSlot = 1 ∨ r.fromSlot = 2) ∧ (r.toSlot = 1 ∨ r.toSlot = 2) ∧ 1 ≤ r.range

def MMDVM.rules (h : MMDVM) : List RewriteConfig :=
  h.tgRewrites ++ h.pcRewrites ++ h.typeRewrites ++ h.srcRewrites

@[mk_iff]
structure MMDVM.Valid (h : MMDVM) : Prop where
  name : h.name ≠ []
  callsign : h.callsign ≠ []
  colorCode : h.colorCode ≤ 15
  inRange : InRange h.latitude h.longitude
  masterServer : h.masterServer ≠ []
  password : h.password ≠ []
  rules : ∀ r ∈ h.rules, r.Valid

@[mk_iff]
structure Config.Accepted (linkByName : Bytes → Bool) (c : Config) : Prop where
  logLevel : c.logLevel ∈ logLevels
  networks : c.mmdvm ≠ []
  entries : ∀ h ∈ c.mmdvm, h.Valid
  distinctNames : (c.mmdvm.map MMDVM.name).Nodup
  ipsc : c.ipsc.Valid linkByName

instance : DecidablePred RewriteConfig.Valid := fun _ => inferInstanceAs (Decidable (_ ∧ _ ∧ _))

instance : DecidablePred MMDVM.Valid := fun h => decidable_of_iff _ (MMDVM.valid_iff h).symm

instance (linkByName : Bytes → Bool) (c : Config) : Decidable (c.Accepted linkByName) :=
  decidable_of_iff _ (Config.accepted_iff linkByName c).symm

theorem validateRules_eq_ok_iff (rules : List RewriteConfig) :
    validateRules rules = .ok () ↔ ∀ r ∈ rules, r.Valid := by
  induction rules with
  | nil => simp [validateRules]
  | cons r rest ih =>
      simp only [validateRules, guard_eq_ok, ih, List.forall_mem_cons, RewriteConfig.Valid,
        validateSlot, Bool.or_eq_true, Bool.not_eq_true', Bool.not_eq_false, beq_iff_eq, not_or,
        not_lt, and_assoc]

theorem validateRewrites_eq_ok_iff (h : MMDVM) :
    validateRewrites h = .ok () ↔ ∀ r ∈ h.rules, r.Valid := by
  simp only [validateRewrites, bind_eq_ok, validateRules_eq_ok_iff, MMDVM.rules,
    List.forall_mem_append, and_assoc]

theorem validateNetworks_cons (names : List Bytes) (h : MMDVM) (rest : List MMDVM) :
    validateNetworks names (h :: rest) = .ok () ↔
      h.Valid ∧ h.name ∉ names ∧ validateNetworks (h.name :: names) rest = .ok () := by
  simp only [validateNetworks, guard_eq_ok, bind_eq_ok, validateStation_eq_ok_iff,
    validateRewrites_eq_ok_iff, MMDVM.valid_iff]
  tauto

/-- The whole loop: every entry is valid, the names are distinct, and none was
among the names already recorded. -/
theorem validateNetworks_eq_ok_iff (names : List Bytes) (hs : List MMDVM) :
    validateNetworks names hs = .ok () ↔
      (∀ h ∈ hs, h.Valid) ∧ (hs.map MMDVM.name).Nodup ∧ ∀ h ∈ hs, h.name ∉ names := by
  induction hs generalizing names with
  | nil => simp [validateNetworks]
  | cons h rest ih =>
      simp only [validateNetworks_cons, ih, List.forall_mem_cons, List.map_cons, List.nodup_cons,
        List.mem_map, not_exists, not_and]
      simp only [List.mem_cons, not_or, imp_and, forall_and]
      tauto

theorem Config.validate_eq_ok_iff (linkByName : Bytes → Bool) (c : Config) :
    c.validate linkByName = .ok () ↔ c.Accepted linkByName := by
  simp only [Config.validate, guard_eq_ok, bind_eq_ok, validateNetworks_eq_ok_iff,
    validateIPSC_eq_ok_iff, Config.accepted_iff, List.length_eq_zero, not_not, List.not_mem_nil,
    not_false_eq_true, implies_true, and_true, and_assoc]

/-- `Validate` returns `nil` exactly on the accepted configurations. -/
theorem Config.validate_nil_iff_accepted (linkByName : Bytes → Bool) (c : Config) :
    c.validate linkByName = .ok () ↔ c.Accepted linkByName :=
  Config.validate_eq_ok_iff linkByName c

/-! ### Duplicate names -/

theorem validateNetworks_cons_of_valid {names : List Bytes} {h : MMDVM} (rest : List MMDVM)
    (valid : h.Valid) (fresh : h.name ∉ names) :
    validateNetworks names (h :: rest) = validateNetworks (h.name :: names) rest := by
  have station := (validateStation_eq_ok_iff .mmdvm h.callsign h.colorCode h.latitude h.longitude
    h.masterServer h.password).mpr
      ⟨valid.callsign, valid.colorCode, valid.inRange, valid.masterServer, valid.password⟩
  have rewrites := (validateRewrites_eq_ok_iff h).mpr valid.rules
  simp only [validateNetworks, if_neg valid.name, if_neg fresh, station, rewrites]
  rfl

/-- Once a prefix of entries has passed, the loop goes on over the rest with
their names recorded. -/
theorem validateNetworks_append {names : List Bytes} {earlier : List MMDVM} (rest : List MMDVM)
    (passed : validateNetworks names earlier = .ok ()) :
    validateNetworks names (earlier ++ rest) =
      validateNetworks ((earlier.map MMDVM.name).reverse ++ names) rest := by
  induction earlier generalizing names with
  | nil => rfl
  | cons h earlier ih =>
      obtain ⟨valid, fresh, restPassed⟩ := (validateNetworks_cons names h earlier).mp passed
      rw [List.cons_append, validateNetworks_cons_of_valid _ valid fresh, ih restPassed,
        List.map_cons, List.reverse_cons, List.append_assoc, List.singleton_append]

/-- A name repeated anywhere in `c.MMDVM` is rejected with
`ErrDuplicateMMDVMName` when the entries before it pass. -/
theorem Config.validate_duplicate_name (linkByName : Bytes → Bool) {c : Config}
    {earlier later : List MMDVM} {h : MMDVM} (level : c.logLevel ∈ logLevels)
    (entries : c.mmdvm = earlier ++ h :: later) (earlierValid : ∀ e ∈ earlier, e.Valid)
    (distinct : (earlier.map MMDVM.name).Nodup) (named : h.name ≠ [])
    (repeated : h.name ∈ earlier.map MMDVM.name) :
    c.validate linkByName = .error .duplicateMMDVMName := by
  have passed : validateNetworks [] earlier = .ok () :=
    (validateNetworks_eq_ok_iff [] earlier).mpr ⟨earlierValid, distinct, fun _ _ => List.not_mem_nil _⟩
  have loop : validateNetworks [] c.mmdvm = .error .duplicateMMDVMName := by
    rw [entries, validateNetworks_append _ passed, List.append_nil, validateNetworks,
      if_neg named, if_pos (List.mem_reverse.mpr repeated)]
  rw [Config.validate, if_neg (not_not.mpr level), if_neg (by simp [entries]), loop]
  rfl

/-- The entry of `validConfig` in the configuration tests. -/
def validEntry : MMDVM :=
  { name := utf8 "BM", callsign := utf8 "N0CALL", colorCode := 7,
    latitude := ⟨0x403E000000000000⟩, longitude := ⟨0xC058400000000000⟩,
    masterServer := utf8 "master.example.com:62030", password := utf8 "password",
    tgRewrites := [], pcRewrites := [], typeRewrites := [], srcRewrites := [] }

def duplicateNames : Config :=
  { logLevel := utf8 "info"
    mmdvm := [validEntry, validEntry]
    ipsc :=
      { interface := utf8 "lo", ip := utf8 "10.10.250.1", subnetMask := 24,
        auth := { enabled := false, key := [] } } }

theorem validate_duplicateNames :
    duplicateNames.validate (fun _ => true) = .error .duplicateMMDVMName :=
  Config.validate_duplicate_name (fun _ => true) (by decide)
    (show duplicateNames.mmdvm = [validEntry] ++ validEntry :: [] from rfl)
    (by decide) (by decide) (by decide) (by decide)

/-! ### The order of the networks -/

/-- Whether `Validate` accepts does not depend on the order of the networks,
though which error it returns may. -/
theorem Config.validate_ok_perm (linkByName : Bytes → Bool) {c : Config} {networks : List MMDVM}
    (reordered : networks.Perm c.mmdvm) :
    { c with mmdvm := networks }.validate linkByName = .ok () ↔ c.validate linkByName = .ok () := by
  have nonempty : networks ≠ [] ↔ c.mmdvm ≠ [] := by
    simp only [ne_eq, ← List.length_eq_zero, reordered.length_eq]
  simp only [Config.validate_eq_ok_iff, Config.accepted_iff, nonempty, reordered.mem_iff,
    (reordered.map MMDVM.name).nodup_iff]

def twoNetworks : Config :=
  { duplicateNames with mmdvm := [validEntry, { validEntry with name := utf8 "TGIF" }] }

theorem validate_ok_perm_twoNetworks :
    twoNetworks.mmdvm.reverse.Perm twoNetworks.mmdvm ∧
      ({ twoNetworks with mmdvm := twoNetworks.mmdvm.reverse }.validate (fun _ => true) = .ok () ↔
        twoNetworks.validate (fun _ => true) = .ok ()) :=
  ⟨List.reverse_perm _, Config.validate_ok_perm (fun _ => true) (List.reverse_perm _)⟩

end Ipsc2Hbrp.Config.Multi
