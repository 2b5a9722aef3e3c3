import Mathlib.Tactic.Common

/-!
# The configuration

`services.yaml` as the daemon holds it in memory. A field that the file leaves out has the
zero value of its type.
-/

namespace HomelabDaemon

def hasPrefix (s pre : String) : Bool := pre.toList.isPrefixOf s.toList

def hasSuffix (s suffix : String) : Bool := suffix.toList.isSuffixOf s.toList

def trimPrefix (s pre : String) : String :=
  if hasPrefix s pre then String.ofList (s.toList.drop pre.toList.length) else s

def trimSuffix (s suffix : String) : String :=
  if hasSuffix s suffix then String.ofList (s.toList.take (s.toList.length - suffix.toList.length)) else s

theorem hasSuffix_append (s suffix : String) : hasSuffix (s ++ suffix) suffix = true := by
  simp [hasSuffix]

/-- A change that `view` does not show leaves what is seen of a list. -/
theorem map_modify {α β : Type} {view : α → β} {f : α → α} (same : ∀ x, view (f x) = view x) (xs : List α) (idx : Nat) :
    (xs.modify idx f).map view = xs.map view := by
  induction xs generalizing idx with
  | nil => simp
  | cons x xs ih =>
    cases idx with
    | zero => simp [same]
    | succ idx => simp [ih]

structure QuiConfig where
  enabled : Bool := false
  url : String := ""
  deriving DecidableEq

structure VPNConfig where
  enabled : Bool := false
  netnsName : String := ""
  interface : String := ""
  address : String := ""
  dns : String := ""
  peerPublicKey : String := ""
  peerEndpoint : String := ""
  allowedIPs : String := ""
  privateKeyFile : String := ""
  provider : String := ""
  type : String := ""
  serverCountry : String := ""
  vethHostIP : String := ""
  vethNetnsIP : String := ""
  portFile : String := ""
  refreshIntervalSeconds : Int := 0
  deriving DecidableEq

structure SMTPConfig where
  host : String := ""
  port : Int := 0
  username : String := ""
  password : String := ""
  deriving DecidableEq

structure NotifyConfig where
  smtp : SMTPConfig := {}
  fromAddr : String := ""
  toAddr : String := ""
  deriving DecidableEq

structure StoragePoolConfig where
  uuid : String := ""
  mountpoint : String := ""
  options : String := ""
  autoMount : Bool := false
  name : String := ""
  deriving DecidableEq

structure StorageConfig where
  pools : List StoragePoolConfig := []
  deriving DecidableEq

/-- One managed systemd unit. -/
structure Service where
  unit : String := ""
  enabled : Bool := false
  order : Int := 0
  bootDelay : Int := 0
  dependsOn : List String := []
  requiresMounts : List String := []
  restart : String := ""
  restartDelay : Int := 0
  iconURL : String := ""
  homepageURL : String := ""
  deriving DecidableEq

/-- A daemon-managed backup job. -/
structure Backup where
  unit : String := ""
  enabled : Bool := false
  schedule : String := ""
  dependsOn : List String := []
  requiresMounts : List String := []
  healthcheckUUID : String := ""
  pauseService : String := ""
  deriving DecidableEq

structure Config where
  version : Int := 0
  notify : NotifyConfig := {}
  storage : StorageConfig := {}
  vpn : VPNConfig := {}
  qui : QuiConfig := {}
  services : List Service := []
  backups : List Backup := []
  deriving DecidableEq

/-! ### The checks of `loadConfig` -/

/-- `%q` of a printable string. -/
def quoted (s : String) : String :=
  "\"" ++ String.ofList (s.toList.flatMap fun c => if c = '"' ∨ c = '\\' then ['\\', c] else [c]) ++ "\""

inductive LoadError where
  | read (message : String)
  | parse (message : String)
  | noUnit (index : Nat)
  | invalidRestart (unit restart : String)
  deriving DecidableEq

def LoadError.text : LoadError → String
  | read message | parse message => message
  | noUnit index => "service at index " ++ toString index ++ " has no unit"
  | invalidRestart unit restart => "service " ++ quoted unit ++ ": invalid restart " ++ quoted restart

def loadPolicies : List String := ["", "no", "on-failure", "unless-stopped", "always"]

/-- The loop over the services in `loadConfig`, from index `i` on. -/
def checkServices : Nat → List Service → Option LoadError
  | _, [] => none
  | i, s :: rest =>
    if s.unit = "" then some (.noUnit i)
    else if s.restart ∈ loadPolicies then checkServices (i + 1) rest
    else some (.invalidRestart s.unit s.restart)

/-- What the loop accepts of one service. -/
structure Service.Valid (s : Service) : Prop where
  unit : s.unit ≠ ""
  restart : s.restart ∈ loadPolicies

theorem checkServices_eq_none {i : Nat} {services : List Service} :
    checkServices i services = none ↔ ∀ s ∈ services, s.Valid := by
  induction services generalizing i with
  | nil => simp [checkServices]
  | cons s rest ih =>
    simp only [checkServices, List.forall_mem_cons]
    by_cases noUnit : s.unit = ""
    · simp only [noUnit, ↓reduceIte, reduceCtorEq, false_iff]
      exact fun h => h.1.unit noUnit
    · by_cases known : s.restart ∈ loadPolicies
      · simp only [noUnit, known, ↓reduceIte, ih]
        exact ⟨fun h => ⟨⟨noUnit, known⟩, h⟩, fun h => h.2⟩
      · simp only [noUnit, known, ↓reduceIte, reduceCtorEq, false_iff]
        exact fun h => known h.1.restart

theorem mem_modify {α : Type} {xs : List α} {idx : Nat} {f : α → α} {x : α} (member : x ∈ xs.modify idx f) :
    x ∈ xs ∨ ∃ t ∈ xs, x = f t := by
  obtain ⟨i, at_⟩ := List.mem_iff_getElem?.mp member
  rw [List.getElem?_modify] at at_
  obtain ⟨t, found, rfl⟩ := Option.map_eq_some_iff.mp at_
  split
  · exact .inr ⟨t, List.mem_of_getElem? found, rfl⟩
  · exact .inl (List.mem_of_getElem? found)

/-- The normalisation of the API: a bare name stands for the service of that name. -/
def withServiceSuffix (unit : String) : String :=
  if hasSuffix unit ".service" then unit else unit ++ ".service"

@[simp] theorem withServiceSuffix_suffix (unit : String) : hasSuffix (withServiceSuffix unit) ".service" = true := by
  unfold withServiceSuffix
  split
  · assumption
  · exact hasSuffix_append unit ".service"

theorem withServiceSuffix_of_suffix {unit : String} (h : hasSuffix unit ".service" = true) :
    withServiceSuffix unit = unit := if_pos h

/-- Two names for one unit. -/
def SameUnit (u v : String) : Prop := withServiceSuffix u = withServiceSuffix v

instance (u v : String) : Decidable (SameUnit u v) := inferInstanceAs (Decidable (_ = _))

def isManaged (cfg : Config) (unit : String) : Bool :=
  cfg.services.any fun svc => svc.unit == withServiceSuffix unit

def enabledUnits (cfg : Config) : List String :=
  (cfg.services.filter (·.enabled)).map (·.unit)

end HomelabDaemon
