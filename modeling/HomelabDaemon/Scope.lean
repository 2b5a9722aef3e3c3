import HomelabDaemon.System
import HomelabDaemon.Registry

/-!
# The scope of the daemon

The registry filters the configuration at startup. A reload replaces it unfiltered; nothing else
adds a service.
-/

namespace HomelabDaemon
open Concurrency Program

namespace Scope
variable {registry : Finset String}

/-- A name for a unit of the registry. -/
def Managed (registry : Finset String) (unit : String) : Prop := ∃ v ∈ registry, SameUnit unit v

/-- What must not happen: a service of another unit gets into the configuration, is handed to a
restart or is commanded as a managed service. Backups command units of their own. -/
def Strays (registry : Finset String) (who : Actor) : Op → Prop
  | .updateConfig f => ¬ ∀ cfg, InScope registry cfg → InScope registry (f cfg)
  | .goRestart svc => svc.unit ∉ registry
  | .spawn _ unit => (∀ name, who ≠ .backup name) ∧ ¬ Managed registry unit
  | _ => False

/-- The configuration reads in scope, and so does a file that is loaded. -/
def Reads (registry : Finset String) : (op : Op) → op.Ans → Prop
  | .config, cfg => InScope registry cfg
  | .ask .loadConfig, .ok cfg => InScope registry cfg
  | _, _ => True

section Code
variable {who : Actor} {svc : Service} {unit : String}

theorem strays_silent (q : Query) : ¬ Strays registry who (.ask q) := fun h => h

theorem managed_of_mem (member : unit ∈ registry) : Managed registry unit := ⟨unit, member, rfl⟩

theorem startUnit_strays (managed : Managed registry unit) :
    ¬ (startUnit unit).Reaches (Reads registry) (Strays registry who) := by
  intro h
  rcases startUnit_reaches h with h | h | h | h | h
  · exact h
  · exact h
  · exact h.2 managed
  · exact h
  · exact h

theorem systemctl_strays (verb : Verb) (managed : Managed registry unit) :
    ¬ (systemctl verb unit).Reaches (Reads registry) (Strays registry who) := by
  intro h
  rcases (reaches_bind _ _).mp h with h | ⟨_, _, h⟩
  · exact ((reaches_perform _).mp h).2 managed
  · exact (reaches_perform _).mp h

theorem restartUnit_strays (managed : Managed registry unit) :
    ¬ (restartUnit unit).Reaches (Reads registry) (Strays registry who) := by
  intro h
  rcases (reaches_bind _ _).mp h with h | ⟨_, _, h⟩
  · exact systemctl_strays .restart managed h
  · exact h

theorem stopUnit_strays (managed : Managed registry unit) :
    ¬ (stopUnit unit).Reaches (Reads registry) (Strays registry who) := by
  intro h
  rcases (reaches_bind _ _).mp h with h | ⟨_, _, h⟩
  · exact (reaches_perform _).mp h
  rcases (reaches_bind _ _).mp h with h | ⟨exit, _, h⟩
  · exact systemctl_strays .stop managed h
  rcases (reaches_bind _ _).mp h with h | ⟨_, _, h⟩
  · split at h
    · exact (clearFailed_asks unit).quiet strays_silent h
    · exact h
  rcases (reaches_bind _ _).mp h with h | ⟨_, _, h⟩
  · exact (reaches_perform _).mp h
  rcases (reaches_bind _ _).mp h with h | ⟨_, _, h⟩
  · exact (reaches_perform _).mp h
  · exact h

theorem verifyRunningServices_strays :
    ¬ verifyRunningServices.Reaches (Reads registry) (Strays registry who) := by
  intro h
  rcases (reaches_bind _ _).mp h with h | ⟨cfg, ⟨_, inScope, rfl⟩, h⟩
  · exact (reaches_perform _).mp h
  obtain ⟨stopped, svc, member, h⟩ := reaches_fold h
  unfold verifyService at h
  split at h
  · exact h
  rcases (reaches_bind _ _).mp h with h | ⟨active, _, h⟩
  · exact (ask_asks _).quiet strays_silent h
  split at h
  · exact h
  rcases (reaches_bind _ _).mp h with h | ⟨unmet, _, h⟩
  · exact (checkConstraints_asks svc).quiet strays_silent h
  split at h
  · exact h
  rcases (reaches_bind _ _).mp h with h | ⟨_, _, h⟩
  · exact stopUnit_strays (managed_of_mem (inScope svc member)) h
  · exact h

/-! ### The background -/

theorem restartGoroutine_strays (member : svc.unit ∈ registry) :
    ¬ (restartGoroutine svc).Reaches (Reads registry) (Strays registry who) := by
  intro h
  rcases (reaches_bind _ _).mp h with h | ⟨_, _, h⟩
  · rcases restart_reaches strays_silent h with h | h | h
    · exact startUnit_strays (managed_of_mem member) h
    · exact h
    · exact h
  · exact (reaches_perform _).mp h

theorem bootable_subset {services enabled : List Service} {may : (op : Op) → op.Ans → Prop}
    (h : (bootable services).Returns may enabled) : ∀ s ∈ enabled, s ∈ services := by
  have none : ∀ s ∈ ([] : List Service), s ∈ services := fun s member => nomatch member
  refine returns_fold (fun enabled => ∀ s ∈ enabled, s ∈ services) ?_ none h
  intro enabled svc enabled' member before h
  split at h
  · rw [← (returns_done _ _).mp h]
    exact before
  · obtain ⟨stopped, _, h⟩ := (returns_bind _ _ _).mp h
    rw [← (returns_done _ _).mp h]
    split
    · exact before
    · intro s inside
      rcases List.mem_append.mp inside with inside | inside
      · exact before s inside
      · obtain rfl := List.mem_singleton.mp inside
        exact member

theorem startup_strays : ¬ startup.Reaches (Reads registry) (Strays registry who) := by
  intro h
  rcases startup_reaches strays_silent h with h | h | ⟨cfg, inScope, h | ⟨enabled, built, svc, member, h⟩⟩
  · exact verifyRunningServices_strays h
  · exact h
  · obtain ⟨_, svc, _, h⟩ := reaches_fold h
    split at h
    · exact h
    rcases (reaches_bind _ _).mp h with h | ⟨_, _, h⟩
    · exact (reaches_perform _).mp h
    · exact h
  · have configured : svc ∈ cfg.services := bootable_subset built svc member
    rcases bootService_reaches strays_silent h with h | h
    · exact startUnit_strays (managed_of_mem (inScope svc configured)) h
    · exact h

theorem monitorLoop_strays (n : Nat) (prevFailures : String → Nat) :
    ¬ (monitorLoop n prevFailures).Reaches (Reads registry) (Strays registry who) := by
  intro h
  rcases monitorLoop_reaches strays_silent h with h | ⟨_, h⟩ | ⟨cfg, inScope, svc, member, _, h⟩
  · exact h
  · exact h
  rcases supervise_reaches strays_silent h with h | h | h | h | ⟨_, _, h⟩
  · exact h
  · exact h
  · exact h
  · exact h
  · exact h (inScope svc member)

theorem managed_of_isManaged {cfg : Config} (inScope : InScope registry cfg) (h : isManaged cfg unit = true) :
    Managed registry unit := by
  obtain ⟨svc, member, named⟩ := List.any_eq_true.mp h
  have named : svc.unit = withServiceSuffix unit := eq_of_beq named
  refine ⟨svc.unit, inScope svc member, ?_⟩
  unfold SameUnit
  rw [named, withServiceSuffix_of_suffix (withServiceSuffix_suffix unit)]

theorem managed_of_enabled {cfg : Config} (inScope : InScope registry cfg) (h : unit ∈ enabledUnits cfg) :
    Managed registry unit := by
  obtain ⟨svc, member, rfl⟩ := List.mem_map.mp h
  exact managed_of_mem (inScope svc (List.mem_filter.mp member).1)

theorem constraintsOf_strays : ¬ (constraintsOf unit).Reaches (Reads registry) (Strays registry who) := by
  intro h
  rcases (reaches_bind _ _).mp h with h | ⟨cfg, _, h⟩
  · exact (reaches_perform _).mp h
  split at h
  · exact h
  · exact (checkConstraints_asks _).quiet strays_silent h

theorem handleStart_strays : ¬ (handleStart unit).Reaches (Reads registry) (Strays registry who) := by
  intro h
  rcases (reaches_bind _ _).mp h with h | ⟨cfg, ⟨_, inScope, rfl⟩, h⟩
  · exact (reaches_perform _).mp h
  split at h
  · exact h
  rename_i known
  rcases (reaches_bind _ _).mp h with h | ⟨_, _, h⟩
  · exact (reaches_perform _).mp h
  rcases (reaches_bind _ _).mp h with h | ⟨unmet, _, h⟩
  · exact constraintsOf_strays h
  split at h
  · exact h
  rcases (reaches_bind _ _).mp h with h | ⟨_, _, h⟩
  · exact startUnit_strays (managed_of_isManaged inScope (by simpa using known)) h
  · exact h

theorem handleStop_strays : ¬ (handleStop unit).Reaches (Reads registry) (Strays registry who) := by
  intro h
  rcases (reaches_bind _ _).mp h with h | ⟨cfg, ⟨_, inScope, rfl⟩, h⟩
  · exact (reaches_perform _).mp h
  split at h
  · exact h
  rename_i known
  rcases (reaches_bind _ _).mp h with h | ⟨_, _, h⟩
  · exact (reaches_perform _).mp h
  rcases (reaches_bind _ _).mp h with h | ⟨_, _, h⟩
  · exact stopUnit_strays (managed_of_isManaged inScope (by simpa using known)) h
  · exact h

theorem handleRestart_strays : ¬ (handleRestart unit).Reaches (Reads registry) (Strays registry who) := by
  intro h
  rcases (reaches_bind _ _).mp h with h | ⟨cfg, ⟨_, inScope, rfl⟩, h⟩
  · exact (reaches_perform _).mp h
  split at h
  · exact h
  rename_i known
  rcases (reaches_bind _ _).mp h with h | ⟨_, _, h⟩
  · exact (reaches_perform _).mp h
  rcases (reaches_bind _ _).mp h with h | ⟨error, _, h⟩
  · exact restartUnit_strays (managed_of_isManaged inScope (by simpa using known)) h
  split at h
  · exact h
  rcases (reaches_bind _ _).mp h with h | ⟨_, _, h⟩
  · split at h
    · exact (ask_asks _).quiet strays_silent h
    · exact h
  · exact h

theorem handleStartAll_strays : ¬ handleStartAll.Reaches (Reads registry) (Strays registry who) := by
  intro h
  rcases (reaches_bind _ _).mp h with h | ⟨cfg, ⟨_, inScope, rfl⟩, h⟩
  · exact (reaches_perform _).mp h
  rcases (reaches_bind _ _).mp h with h | ⟨_, _, h⟩
  · exact (reaches_perform _).mp h
  rcases (reaches_bind _ _).mp h with h | ⟨_, _, h⟩
  · obtain ⟨failed, unit, member, h⟩ := reaches_fold h
    rcases (reaches_bind _ _).mp h with h | ⟨unmet, _, h⟩
    · exact constraintsOf_strays h
    split at h
    · exact h
    rcases (reaches_bind _ _).mp h with h | ⟨_, _, h⟩
    · exact startUnit_strays (managed_of_enabled inScope member) h
    · exact h
  · exact h

theorem handleStopAll_strays : ¬ handleStopAll.Reaches (Reads registry) (Strays registry who) := by
  intro h
  rcases (reaches_bind _ _).mp h with h | ⟨cfg, ⟨_, inScope, rfl⟩, h⟩
  · exact (reaches_perform _).mp h
  rcases (reaches_bind _ _).mp h with h | ⟨_, _, h⟩
  · exact (reaches_perform _).mp h
  rcases (reaches_bind _ _).mp h with h | ⟨_, _, h⟩
  · obtain ⟨failed, unit, member, h⟩ := reaches_fold h
    rcases (reaches_bind _ _).mp h with h | ⟨_, _, h⟩
    · exact stopUnit_strays (managed_of_enabled inScope member) h
    · exact h
  · exact h

/-- Neither commands a unit nor changes the configuration. -/
def tame : Op → Prop
  | .updateConfig _ | .goRestart _ | .spawn _ _ => False
  | _ => True

theorem tame_strays {α : Type} {p : Prog α} (h : p.Uses tame) :
    ¬ p.Reaches (Reads registry) (Strays registry who) := by
  refine h.not_reaches fun op tame strays => ?_
  cases op <;> first | exact tame | exact strays

theorem writeConfig_tame : writeConfig.Uses tame := by
  refine writeConfig_uses.mono fun op files => ?_
  cases op <;> trivial

theorem reloadScheduler_tame : reloadScheduler.Uses tame := by
  unfold reloadScheduler
  refine .bind (.perform trivial) fun _ => .bind (.perform trivial) fun _ => .bind (.perform trivial) fun cfg => ?_
  refine .bind (.each fun backup => ?_) fun _ => .perform trivial
  unfold schedule
  split
  · exact .done _
  refine .bind (.perform trivial) fun added => ?_
  split
  · exact .perform trivial
  · exact .done _

theorem handleReload_strays : ¬ handleReload.Reaches (Reads registry) (Strays registry who) := by
  intro h
  rcases handleReload_reaches h with h | ⟨cfg, inScope, h⟩ | h | h | h
  · exact h
  · exact h fun _ _ => inScope
  · exact tame_strays reloadScheduler_tame h
  · exact verifyRunningServices_strays h
  · exact h

/-! ### PATCHes keep the units of all services -/

theorem modify_inScope {cfg : Config} {idx : Nat} {f : Service → Service} (same : ∀ s, (f s).unit = s.unit)
    (inScope : InScope registry cfg) : InScope registry { cfg with services := cfg.services.modify idx f } := by
  intro svc member
  rcases mem_modify member with inside | ⟨s, inside, rfl⟩
  · exact inScope svc inside
  · rw [same]
    exact inScope s inside

theorem handlePatchConfig_strays {name : String} {body : Option ConfigPatch} :
    ¬ (handlePatchConfig name body).Reaches (Reads registry) (Strays registry who) := by
  intro h
  rcases handlePatchConfig_reaches h with h | ⟨p, idx, f, _, sets, _, h⟩ | h | h | h
  · exact h
  · have same : ∀ s, (f s).unit = s.unit := by
      intro s
      cases sets <;> rfl
    exact h fun _ => modify_inScope same
  · exact h
  · exact h
  · exact tame_strays writeConfig_tame h

theorem handlePatchBackup_strays {name : String} {body : Option BackupPatch} :
    ¬ (handlePatchBackup name body).Reaches (Reads registry) (Strays registry who) := by
  intro h
  rcases handlePatchBackup_reaches h with h | ⟨p, idx, f, _, _, _, h⟩ | h | h
  · exact h
  · exact h fun _ inScope => inScope
  · exact tame_strays reloadScheduler_tame h
  · exact tame_strays writeConfig_tame h

theorem handlePatchStorage_strays {body : Option StorageConfigPatch} :
    ¬ (handlePatchStorage body).Reaches (Reads registry) (Strays registry who) := by
  intro h
  rcases handlePatchStorage_reaches h with ⟨p, _, h⟩ | h
  · exact h fun _ inScope => inScope
  · exact tame_strays writeConfig_tame h

theorem handle_strays (request : Request) : ¬ (handle request).Reaches (Reads registry) (Strays registry who) := by
  cases request with
  | start unit => exact handleStart_strays
  | stop unit => exact handleStop_strays
  | restart unit => exact handleRestart_strays
  | startAll => exact handleStartAll_strays
  | stopAll => exact handleStopAll_strays
  | reload => exact handleReload_strays
  | patchConfig unit body => exact handlePatchConfig_strays
  | patchBackup unit body => exact handlePatchBackup_strays
  | patchStorage body => exact handlePatchStorage_strays
  | runBackup unit =>
    intro h
    rcases (reaches_bind _ _).mp h with h | ⟨_, _, h⟩
    · exact (reaches_perform _).mp h
    · exact h
  | unmount body =>
    refine tame_strays ((handleUnmount_looks body).mono fun op looks => ?_)
    cases op <;> trivial

theorem runBackup_strays {name : String} :
    ¬ (runBackup name).Reaches (Reads registry) (Strays registry (.backup name)) := by
  refine (runBackup_built name).within.not_reaches fun op member strays => ?_
  cases op with
  | spawn verb unit => exact strays.1 name rfl
  | updateConfig f => rcases member with member | member <;> exact member
  | goRestart svc => rcases member with member | member <;> exact member
  | _ => exact strays

end Code

/-- The services of restarts are known. -/
def Known (registry : Finset String) : Actor → Prop
  | .restart svc => svc.unit ∈ registry
  | _ => True

theorem code_strays {who : Actor} (known : Known registry who) :
    ¬ (daemon.code who).Reaches (Reads registry) (Strays registry who) := by
  have ended : ∀ {α : Type} {p : Prog α}, ¬ p.Reaches (Reads registry) (Strays registry who) →
      ¬ (p >>= fun _ => return () : Prog Unit).Reaches (Reads registry) (Strays registry who) := by
    intro α p quiet h
    rcases (reaches_bind _ _).mp h with h | ⟨_, _, h⟩
    · exact quiet h
    · exact h
  cases who with
  | boot => exact startup_strays
  | monitor ticks => exact monitorLoop_strays ticks _
  | restart svc => exact restartGoroutine_strays known
  | api request => exact ended (handle_strays request)
  | backup name => exact ended runBackup_strays

/-! ### Runs -/

/-- A reload finds services of the registry only. -/
def ReloadsInScope (registry : Finset String) (_ : Story) (_ : Configuration) : Step → Prop
  | .act _ _ (.ask .loadConfig) (.ok cfg) => InScope registry cfg
  | _ => True

/-- The step commands no unit outside the registry as a managed service. -/
def ActsInScope (registry : Finset String) : Step → Prop
  | .act _ (.backup _) _ _ => True
  | .act _ _ (.spawn _ unit) _ => Managed registry unit
  | _ => True

section Run
variable {w : World} {ticks : Nat} {hist : Story} {c : Configuration}

theorem effect_inScope {who : Actor} {op : Op} {ans : op.Ans} (inScope : InScope registry w.cfg)
    (quiet : ¬ Strays registry who op) : InScope registry (w.effect op ans).cfg := by
  cases op with
  | updateConfig f =>
    have keeps : ∀ cfg, InScope registry cfg → InScope registry (f cfg) := Classical.not_not.mp quiet
    exact keeps w.cfg inScope
  | spawn verb unit => cases verb <;> exact inScope
  | createTemp | writeTemp | renameTemp | removeTemp => cases ans <;> exact inScope
  | _ => exact inScope

theorem run_quiet (inScope : InScope registry w.cfg)
    (run : daemon.Run (ReloadsInScope registry) (started w ticks) hist c) :
    InScope registry c.world.cfg ∧ ∀ {j : Nat} {th : Thread Op Op.Ans Actor}, c.pool[j]? = some th →
      ¬ th.code.Reaches (Reads registry) (Strays registry th.who) := by
  refine Machine.Run.shielded (Reads registry) (fun v => InScope registry v.cfg) (Strays registry) ?_
    (fun stands _ => effect_inScope stands) ?_ ?_ ?_ ?_ inScope run
  · intro hist c i who op ans met stands permitted
    cases op with
    | config =>
      have read : ans = c.world.cfg := of_decide_eq_true permitted
      rw [read]
      exact stands
    | ask q =>
      cases q with
      | loadConfig =>
        cases ans with
        | error e => trivial
        | ok cfg => exact met
      | _ => trivial
    | _ => trivial
  · intro v move stands
    cases move <;> exact stands
  · intro who op new quiet forked
    apply code_strays
    cases op with
    | goRestart svc =>
      obtain rfl := List.mem_singleton.mp forked
      exact Classical.not_not.mp quiet
    | goRunBackup unit =>
      obtain rfl := List.mem_singleton.mp forked
      trivial
    | _ => cases forked
  · intro _ _ who _ arrives
    cases who with
    | restart svc => cases arrives
    | _ => exact code_strays trivial
  · intro who member
    rcases List.mem_cons.mp member with rfl | member
    · exact code_strays trivial
    · obtain rfl := List.mem_singleton.mp member
      exact code_strays trivial

/-- In a run whose reloads stay in scope the daemon does. -/
theorem run_inScope {loaded : Except LoadError Config} {registryFile : ReadFile}
    (read : loadManagedUnits registryFile = .ok (some registry)) (starts : startConfig loaded registryFile = some w.cfg)
    (run : daemon.Run (ReloadsInScope registry) (started w ticks) hist c) :
    InScope registry c.world.cfg ∧ ∀ e c', daemon.Step c e c' → ActsInScope registry e := by
  obtain ⟨holds, quiet⟩ := run_quiet (startConfig_inScope read starts) run
  refine ⟨holds, fun e c' next => ?_⟩
  cases next with
  | @act i who op k ans at_ permitted =>
    have stays : ¬ Strays registry who op := fun strays => quiet at_ (.inl strays)
    cases op with
    | spawn verb unit =>
      cases who with
      | backup name => trivial
      | _ =>
        refine Classical.not_not.mp fun unmanaged => stays ⟨fun name same => ?_, unmanaged⟩
        cases same
    | _ => cases who <;> trivial
  | env permitted => trivial
  | arrive arrives => trivial

end Run

/-! ### Schedules -/

def registryFile : ReadFile := .data "# managed\na.service\n".toList

def configOf (units : List String) : Config :=
  { version := 1, services := units.map fun unit => { unit := unit, enabled := true } }

def world : World := { cfg := configOf ["a.service"] }

def isSpawn (unit : String) (_ : Actor) : Op → Bool
  | .spawn _ u => u == unit
  | _ => false

def quietReload (_ : Story) (_ : Configuration) : Step → Bool
  | .act _ _ (.ask .loadConfig) (.ok cfg) => decide (InScope {"a.service"} cfg)
  | _ => true

theorem registryFile_read : loadManagedUnits registryFile = .ok (some {"a.service"}) := by decide

theorem world_starts : startConfig (.ok (configOf ["a.service", "b.service"])) registryFile = some world.cfg := by
  decide

/-- After a reload, a request starts the service. -/
theorem run_inScope_reloaded : ∃ hist c, Machine.about c 3 (isSpawn "a.service") = true ∧
    daemon.Run (ReloadsInScope {"a.service"}) (started world 1) hist c ∧
    InScope {"a.service"} c.world.cfg ∧ ∀ e c', daemon.Step c e c' → ActsInScope {"a.service"} e := by
  obtain ⟨hist, c, run, shown⟩ := schedule_run quietReload world 1
    [.arrive (.api .reload), .go 2 { loaded := .ok (configOf ["a.service"]) } 2,
      .arrive (.api (.start "a.service")), .go 3 {} 5]
    (fun s => Machine.about s.2 3 (isSpawn "a.service")) (by decide)
  have reloads : daemon.Run (ReloadsInScope {"a.service"}) (started world 1) hist c := by
    refine run.weaken fun hist c e met => ?_
    cases e with
    | act i who op ans =>
      cases op with
      | ask q =>
        cases q with
        | loadConfig =>
          cases ans with
          | error e => trivial
          | ok cfg =>
            have inScope : InScope {"a.service"} cfg := of_decide_eq_true met
            exact inScope
        | _ => trivial
      | _ => trivial
    | _ => trivial
  exact ⟨hist, c, shown, reloads, run_inScope registryFile_read world_starts reloads⟩

/-- A reload brings back the service that the registry does not have. -/
theorem reload_strays : ¬ ∀ (registryFile : ReadFile) (registry : Finset String) (loaded : Except LoadError Config)
    (w : World) (ticks : Nat) (hist : Story) (c : Configuration), loadManagedUnits registryFile = .ok (some registry) →
    startConfig loaded registryFile = some w.cfg → daemon.Run Machine.anyStep (started w ticks) hist c →
    InScope registry c.world.cfg ∧ ∀ e c', daemon.Step c e c' → ActsInScope registry e := by
  intro claim
  obtain ⟨hist, c, run, shown⟩ := schedule_anyRun world 1
    [.arrive (.api .reload), .go 2 { loaded := .ok (configOf ["a.service", "b.service"]) } 2]
    (fun s => decide (¬ InScope {"a.service"} s.2.world.cfg)) (by decide)
  have strays : ¬ InScope {"a.service"} c.world.cfg := of_decide_eq_true shown
  exact strays (claim registryFile _ _ world 1 hist c registryFile_read world_starts run).1

end Scope
end HomelabDaemon
