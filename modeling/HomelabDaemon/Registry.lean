import HomelabDaemon.Config
import HomelabDaemon.Strings
import Mathlib.Data.Finset.Basic

/-!
# The managed-units registry

The units that the host's configuration declares. At startup the services of other units are
dropped from the configuration.
-/

namespace HomelabDaemon
open Strings

inductive ReadFile where
  | data (text : Str)
  | notExist
  | failed (message : String)

def namesUnit (line : Str) : Bool := !line.isEmpty && line.head? != some '#'

/-- The set of units, or none where there is no registry. -/
def loadManagedUnits : ReadFile → Except String (Option (Finset String))
  | .data text => .ok (some ((((lines text).map trimSpace).filter namesUnit).map String.ofList).toFinset)
  | .notExist => .ok none
  | .failed message => .error message

/-- The number is of the services dropped. -/
def filterByRegistry (cfg : Config) : Option (Finset String) → Config × Nat
  | none => (cfg, 0)
  | some registry =>
    let kept := cfg.services.filter (·.unit ∈ registry)
    ({ cfg with services := kept }, cfg.services.length - kept.length)

/-- The configuration that `main` starts the daemon with, or none where it exits. -/
def startConfig (loaded : Except LoadError Config) (registryFile : ReadFile) : Option Config :=
  match loaded, loadManagedUnits registryFile with
  | .ok cfg, .ok registry => some (filterByRegistry cfg registry).1
  | _, _ => none

def InScope (registry : Finset String) (cfg : Config) : Prop := ∀ svc ∈ cfg.services, svc.unit ∈ registry

instance (registry : Finset String) (cfg : Config) : Decidable (InScope registry cfg) :=
  inferInstanceAs (Decidable (∀ svc ∈ cfg.services, svc.unit ∈ registry))

section Filter
variable {registry : Finset String} {cfg : Config}

theorem filterByRegistry_inScope : InScope registry (filterByRegistry cfg (some registry)).1 := by
  intro svc member
  exact of_decide_eq_true (List.mem_filter.mp member).2

theorem startConfig_inScope {loaded : Except LoadError Config} {registryFile : ReadFile}
    (read : loadManagedUnits registryFile = .ok (some registry)) (starts : startConfig loaded registryFile = some cfg) :
    InScope registry cfg := by
  unfold startConfig at starts
  rw [read] at starts
  cases loaded with
  | error e => cases starts
  | ok whole =>
    obtain rfl := Option.some.inj starts
    exact filterByRegistry_inScope

end Filter

end HomelabDaemon
