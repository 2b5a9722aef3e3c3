import HomelabDaemon.RoundTrip
import HomelabDaemon.Merge

/-!
# Merges beside a running daemon

A merge reads services.yaml and replaces it. The daemon reads it on a reload only, and a PATCH
writes what the daemon has in memory. What a merge wrote is owed until a PATCH sets it.
-/

namespace HomelabDaemon
open Concurrency Program Machine Yaml

namespace LostUpdate
open PatchAtomic PatchFrame RoundTrip

/-- The YAML library, and the paths that a merge is called with. -/
structure Setup where
  unmarshal : Unmarshal
  marshal : Config → Text
  path : String
  defaultPath : String

/-- How far a run of `merge-config` is. -/
inductive Stage where
  | idle
  | merged (cfg : Config)
  | wrote (cfg : Config)
  | ended
  deriving DecidableEq

def Stage.busy : Stage → Bool
  | merged _ | wrote _ => true
  | _ => false

/-- The daemon, and the merges beside it. -/
structure Host where
  world : World
  /-- The content of services.yaml.tmp. All merges write to this one. -/
  tmp : Option Text := none
  merges : Nat → Stage := fun _ => .idle

/-- What happens outside the daemon: merges read both files, write the temporary file and rename
it. Each step may fail. -/
inductive Outer where
  | daemon (move : Env)
  | load (run : Nat) (error : Option String) (defaults : Except String Text)
  /-- A failed write leaves some content. -/
  | write (run : Nat) (cfg : Config) (left : Option Text)
  | rename (run : Nat) (cfg : Config) (error : Option String)

section Host
variable (S : Setup)

def Setup.load (data : Except String Text) : Except LoadError Config := loadConfig S.unmarshal S.path data

def readFailed : Except LoadError Config → Bool
  | .error (.read _) => true
  | _ => false

namespace Host

/-- A reload reads services.yaml, or fails to. -/
def permits (h : Host) : (op : Op) → op.Ans → Bool
  | .ask .loadConfig, loaded => decide (loaded = S.load (.ok h.world.file)) || readFailed loaded
  | op, ans => h.world.permits op ans

def effect (h : Host) (op : Op) (ans : op.Ans) : Host := { h with world := h.world.effect op ans }

def setStage (h : Host) (run : Nat) (stage : Stage) : Host := { h with merges := Function.update h.merges run stage }

def loadBoth (h : Host) (error : Option String) (defaults : Except String Text) : MergeResult :=
  handleMergeConfig (S.load (match error with
    | some message => .error message
    | none => .ok h.world.file)) (loadConfig S.unmarshal S.defaultPath defaults)

def envPermits (h : Host) : Outer → Bool
  | .daemon move => h.world.envPermits move
  | .load run _ _ => decide (h.merges run = .idle)
  | .write run cfg _ => decide (h.merges run = .merged cfg)
  | .rename run cfg error => decide (h.merges run = .wrote cfg) && (error.isSome || h.tmp.isSome)

def envEffect (h : Host) : Outer → Host
  | .daemon move => { h with world := h.world.envEffect move }
  | .load run error defaults =>
    h.setStage run (match h.loadBoth S error defaults with
      | .saves cfg => .merged cfg
      | _ => .ended)
  | .write run cfg none => { h with tmp := some (saveText S.marshal cfg) }.setStage run (.wrote cfg)
  | .write run _ (some left) => { h with tmp := some left }.setStage run .ended
  | .rename run _ none =>
    { h with world := { h.world with file := h.tmp.getD [] }, tmp := none }.setStage run .ended
  | .rename run _ (some _) => h.setStage run .ended

end Host

def host : Machine Op Op.Ans Host Actor Outer where
  permits := Host.permits S
  effect := Host.effect
  code := Actor.code
  forks := forks
  arrives := Actor.arrives
  envPermits := Host.envPermits
  envEffect := Host.envEffect S

abbrev Place := Conf Op Op.Ans Host Actor
abbrev Happening := Event Op Op.Ans Actor Outer
abbrev Chronicle := History Op Op.Ans Actor Outer

/-- The daemon has been started; no merge runs. -/
def begun (w : World) (tmp : Option Text) (ticks : Nat) : Place :=
  (host S).init { world := (started w ticks).world, tmp := tmp } [.boot, .monitor ticks]

end Host

/-! ### What must stay -/

/-- What the last merge wrote, and the units whose `depends_on` a PATCH has set since. -/
structure Owed where
  wrote : Config
  services : Finset String := ∅
  backups : Finset String := ∅

def setsDependencies : Request → Bool
  | .patchConfig _ (some p) => p.dependsOn.isSome
  | .patchBackup _ (some p) => p.dependsOn.isSome
  | _ => false

/-- What a successful request addresses is no longer owed. -/
def Owed.without (o : Owed) (request : Request) : Owed :=
  if setsDependencies request then
    match request with
    | .patchConfig name _ => { o with services := insert (withServiceSuffix name) o.services }
    | .patchBackup name _ => { o with backups := insert (withServiceSuffix name) o.backups }
    | _ => o
  else o

/-- A merge has completed when its file is renamed, and a PATCH has succeeded then. -/
def owed : Chronicle → Option Owed
  | [] => none
  | .env (.rename _ cfg none) :: _ => some { wrote := cfg }
  | .act _ (.api request) (.renameTemp _) none :: hist => (owed hist).map (·.without request)
  | _ :: hist => owed hist

structure SameService (s s' : Service) : Prop where
  unit : s'.unit = s.unit
  requiresMounts : s'.requiresMounts = s.requiresMounts
  iconURL : s'.iconURL = s.iconURL
  homepageURL : s'.homepageURL = s.homepageURL

structure SameBackup (b b' : Backup) : Prop where
  unit : b'.unit = b.unit
  requiresMounts : b'.requiresMounts = b.requiresMounts

/-- Every entry that is owed is there, with its structural fields. -/
structure Has (cfg : Config) (o : Owed) : Prop where
  services : ∀ s ∈ o.wrote.services, ∃ s' ∈ cfg.services, SameService s s' ∧
    (s.unit ∉ o.services → s'.dependsOn = s.dependsOn)
  backups : ∀ b ∈ o.wrote.backups, ∃ b' ∈ cfg.backups, SameBackup b b' ∧
    (b.unit ∉ o.backups → b'.dependsOn = b.dependsOn)

/-- The file has what is owed. -/
def Keeps (S : Setup) (hist : Chronicle) (c : Place) : Prop :=
  ∀ o ∈ owed hist, ∃ cfg, S.load (.ok c.world.world.file) = .ok cfg ∧ Has cfg o

/-- A reload has read the file since the last merge, and no PATCH has left dependencies in memory
that it did not save. -/
def synced : Chronicle → Bool
  | [] => true
  | .env (.rename _ _ none) :: _ => false
  | .act _ (.api .reload) (.updateConfig _) _ :: _ => true
  | .act _ (.api request) (.updateConfig _) _ :: hist => !setsDependencies request && synced hist
  | .act _ (.api _) (.renameTemp _) none :: _ => true
  | _ :: hist => synced hist

def Finished (th : Thread Op Op.Ans Actor) : Prop := th.code = .done ()

/-- No reload and no PATCH is in progress. -/
def Quiet (c : Place) : Prop := ∀ th ∈ c.pool, th.who.changes = true → Finished th

/-- Strings that need no quotes, and no links. -/
structure Clean (cfg : Config) : Prop where
  plain : cfg.Plain
  unlinked : Unlinked cfg

/-- One after the other: merges; and reloads, PATCHes and the renames of merges. A PATCH comes when
the configuration in memory is synced. What the merges read is clean. -/
def Orderly (S : Setup) (hist : Chronicle) (c : Place) : Happening → Prop
  | .env (.load _ error defaults) =>
    (∀ other, (c.world.merges other).busy = false) ∧
    (error = none → ∀ existing, S.load (.ok c.world.world.file) = .ok existing → Clean existing) ∧
    ∀ default, loadConfig S.unmarshal S.defaultPath defaults = .ok default → Clean default
  | .env (.rename _ _ none) => Quiet c
  | .arrive (.api request) =>
    request.changes = true → Quiet c ∧ ∀ patch : Patch, patch.request = request → synced hist = true ∧
    PlainPayload patch
  | _ => True

section Has
variable {o : Owed} {cfg : Config} {request : Request}

theorem without_without (o : Owed) (request : Request) : (o.without request).without request = o.without request := by
  unfold Owed.without
  split
  · cases request <;> simp
  · rfl

theorem without_of_keeps (keeps : setsDependencies request = false) : o.without request = o := by
  unfold Owed.without
  rw [keeps]
  rfl

theorem without_wrote (o : Owed) (request : Request) : (o.without request).wrote = o.wrote := by
  unfold Owed.without
  split
  · cases request <;> rfl
  · rfl

theorem without_services (o : Owed) (request : Request) : o.services ⊆ (o.without request).services ∧
    o.backups ⊆ (o.without request).backups := by
  unfold Owed.without
  split
  · cases request <;> simp
  · simp

theorem has_without (has : Has cfg o) : Has cfg (o.without request) := by
  obtain ⟨services, backups⟩ := without_services o request
  constructor
  · rw [without_wrote]
    intro s member
    obtain ⟨s', inside, same, deps⟩ := has.services s member
    exact ⟨s', inside, same, fun owes => deps fun addressed => owes (services addressed)⟩
  · rw [without_wrote]
    intro b member
    obtain ⟨b', inside, same, deps⟩ := has.backups b member
    exact ⟨b', inside, same, fun owes => deps fun addressed => owes (backups addressed)⟩

theorem has_wrote (cfg : Config) : Has cfg { wrote := cfg } :=
  ⟨fun s member => ⟨s, member, ⟨rfl, rfl, rfl, rfl⟩, fun _ => rfl⟩,
    fun b member => ⟨b, member, ⟨rfl, rfl⟩, fun _ => rfl⟩⟩

theorem has_kept (unlinked : Unlinked o.wrote) (has : Has cfg o) : Has cfg.kept o := by
  constructor
  · intro s member
    obtain ⟨s', inside, same, deps⟩ := has.services s member
    obtain ⟨icon, homepage⟩ := unlinked s member
    exact ⟨s'.kept, List.mem_map_of_mem inside, ⟨same.unit, same.requiresMounts, icon.symm, homepage.symm⟩, deps⟩
  · exact has.backups

theorem mem_modify_of_mem {α : Type} {xs : List α} {x : α} (idx : Nat) (f : α → α) (member : x ∈ xs) :
    x ∈ xs.modify idx f ∨ xs[idx]? = some x ∧ f x ∈ xs.modify idx f := by
  obtain ⟨i, at_⟩ := List.mem_iff_getElem?.mp member
  have here : (xs.modify idx f)[i]? = some (if idx = i then f x else x) := by
    rw [List.getElem?_modify, at_]
    rfl
  by_cases same : idx = i
  · rw [if_pos same] at here
    rw [same]
    exact .inr ⟨at_, same ▸ List.mem_of_getElem? here⟩
  · rw [if_neg same] at here
    exact .inl (List.mem_of_getElem? here)

theorem has_modifyService {name : String} {p : ConfigPatch} {idx : Nat} {f : Service → Service} (sets : p.Sets f)
    (named : (cfg.services.map (·.unit))[idx]? = some (withServiceSuffix name))
    (has : Has cfg (o.without (.patchConfig name (some p)))) :
    Has { cfg with services := cfg.services.modify idx f } (o.without (.patchConfig name (some p))) := by
  refine ⟨fun s member => ?_, has.backups⟩
  obtain ⟨s', inside, same, deps⟩ := has.services s member
  rcases mem_modify_of_mem idx f inside with inside | ⟨at_, inside⟩
  · exact ⟨s', inside, same, deps⟩
  · have unit : s'.unit = withServiceSuffix name := by
      rw [List.getElem?_map, at_] at named
      exact Option.some.inj named
    cases sets with
    | dependsOn given =>
      refine ⟨_, inside, ⟨same.unit, same.requiresMounts, same.iconURL, same.homepageURL⟩, fun owes => ?_⟩
      have isSet : p.dependsOn.isSome = true := Option.isSome_iff_exists.mpr ⟨_, given⟩
      have addressed : s.unit ∈ (o.without (.patchConfig name (some p))).services := by
        rw [← same.unit, unit]
        simp [Owed.without, setsDependencies, isSet]
      exact absurd addressed owes
    | _ => exact ⟨_, inside, ⟨same.unit, same.requiresMounts, same.iconURL, same.homepageURL⟩, deps⟩

theorem has_modifyBackup {name : String} {p : BackupPatch} {idx : Nat} {f : Backup → Backup} (sets : p.Sets f)
    (named : (cfg.backups.map (·.unit))[idx]? = some (withServiceSuffix name))
    (has : Has cfg (o.without (.patchBackup name (some p)))) :
    Has { cfg with backups := cfg.backups.modify idx f } (o.without (.patchBackup name (some p))) := by
  refine ⟨has.services, fun b member => ?_⟩
  obtain ⟨b', inside, same, deps⟩ := has.backups b member
  rcases mem_modify_of_mem idx f inside with inside | ⟨at_, inside⟩
  · exact ⟨b', inside, same, deps⟩
  · have unit : b'.unit = withServiceSuffix name := by
      rw [List.getElem?_map, at_] at named
      exact Option.some.inj named
    cases sets with
    | dependsOn given =>
      refine ⟨_, inside, ⟨same.unit, same.requiresMounts⟩, fun owes => ?_⟩
      have isSet : p.dependsOn.isSome = true := Option.isSome_iff_exists.mpr ⟨_, given⟩
      have addressed : b.unit ∈ (o.without (.patchBackup name (some p))).backups := by
        rw [← same.unit, unit]
        simp [Owed.without, setsDependencies, isSet]
      exact absurd addressed owes
    | _ => exact ⟨_, inside, ⟨same.unit, same.requiresMounts⟩, deps⟩

end Has
/-! ### Merges -/

/-- At most one merge runs. What it is about to save is clean, and what it has written is in the
temporary file. -/
structure Merging (S : Setup) (h : Host) : Prop where
  one : ∀ run other, (h.merges run).busy = true → (h.merges other).busy = true → run = other
  clean : ∀ run cfg, h.merges run = .merged cfg ∨ h.merges run = .wrote cfg → Clean cfg ∧ ∀ s ∈ cfg.services, s.Valid
  content : ∀ run cfg, h.merges run = .wrote cfg → h.tmp = some (saveText S.marshal cfg)

section Merging
variable {S : Setup} {h : Host} {run : Nat} {stage : Stage}

theorem merging_setStage (alone : ∀ other, other ≠ run → (h.merges other).busy = false)
    (clean : ∀ cfg, stage = .merged cfg ∨ stage = .wrote cfg → Clean cfg ∧ ∀ s ∈ cfg.services, s.Valid)
    (content : ∀ cfg, stage = .wrote cfg → h.tmp = some (saveText S.marshal cfg)) :
    Merging S (h.setStage run stage) := by
  have here : (h.setStage run stage).merges run = stage := by
    simp [Host.setStage]
  have elsewhere : ∀ other, other ≠ run → (h.setStage run stage).merges other = h.merges other := by
    intro other ne
    simp [Host.setStage, ne]
  have only : ∀ other, ((h.setStage run stage).merges other).busy = true → other = run := by
    intro other busy
    by_contra ne
    rw [elsewhere other ne, alone other ne] at busy
    cases busy
  constructor
  · intro first second busy busy'
    rw [only first busy, only second busy']
  · intro other cfg at_
    have busy : ((h.setStage run stage).merges other).busy = true := by
      rcases at_ with at_ | at_ <;> rw [at_] <;> rfl
    obtain rfl := only other busy
    rw [here] at at_
    exact clean cfg at_
  · intro other cfg at_
    have busy : ((h.setStage run stage).merges other).busy = true := by
      rw [at_]
      rfl
    obtain rfl := only other busy
    rw [here] at at_
    exact content cfg at_

theorem merging_alone (merging : Merging S h) (busy : (h.merges run).busy = true) (other : Nat) (ne : other ≠ run) :
    (h.merges other).busy = false := by
  cases also : (h.merges other).busy with
  | false => rfl
  | true => exact absurd (merging.one other run also busy) ne

theorem loadBoth_clean {error : Option String} {defaults : Except String Text} {cfg : Config}
    (existingClean : error = none → ∀ existing, S.load (.ok h.world.file) = .ok existing → Clean existing)
    (defaultClean : ∀ default, loadConfig S.unmarshal S.defaultPath defaults = .ok default → Clean default)
    (saves : h.loadBoth S error defaults = .saves cfg) : Clean cfg ∧ ∀ s ∈ cfg.services, s.Valid := by
  obtain ⟨existing, default, loaded, loadedDefault, rfl⟩ := handleMergeConfig_saves saves
  have first : Clean existing ∧ ∀ s ∈ existing.services, s.Valid := by
    cases error with
    | some message => cases loaded
    | none => exact ⟨existingClean rfl existing loaded, load_valid loaded⟩
  have second := defaultClean default loadedDefault
  exact ⟨⟨merged_plain first.1.plain second.plain, merged_unlinked first.1.unlinked second.unlinked⟩,
    merged_valid first.2 (load_valid loadedDefault)⟩

theorem envEffect_merging {hist : Chronicle} {c : Place} {move : Outer} (merging : Merging S c.world)
    (permitted : c.world.envPermits move = true) (orderly : Orderly S hist c (.env move)) :
    Merging S (c.world.envEffect S move) := by
  cases move with
  | daemon move => exact ⟨merging.one, merging.clean, merging.content⟩
  | load run error defaults =>
    obtain ⟨none_, existingClean, defaultClean⟩ := orderly
    refine merging_setStage (fun other _ => none_ other) (fun cfg at_ => ?_) fun cfg at_ => ?_
    · cases result : c.world.loadBoth S error defaults with
      | saves cfg' =>
        rw [result] at at_
        rcases at_ with at_ | at_
        · obtain rfl := Stage.merged.inj at_
          exact loadBoth_clean existingClean defaultClean result
        · cases at_
      | exits | upToDate =>
        rw [result] at at_
        rcases at_ with at_ | at_ <;> cases at_
    · cases result : c.world.loadBoth S error defaults <;> rw [result] at at_ <;> cases at_
  | write run cfg left =>
    have at_ : c.world.merges run = .merged cfg := of_decide_eq_true permitted
    have busy : (c.world.merges run).busy = true := by
      rw [at_]
      rfl
    have alone := merging_alone merging busy
    cases left with
    | some text =>
      exact merging_setStage alone (fun cfg at_ => by rcases at_ with at_ | at_ <;> cases at_) fun cfg at_ => by cases at_
    | none =>
      refine merging_setStage alone (fun cfg' stage => ?_) fun cfg' stage => ?_
      · rcases stage with stage | stage
        · cases stage
        · obtain rfl := Stage.wrote.inj stage
          exact merging.clean run cfg (.inl at_)
      · obtain rfl := Stage.wrote.inj stage
        rfl
  | rename run cfg error =>
    obtain ⟨at_, _⟩ := Bool.and_eq_true_iff.mp permitted
    have at_ : c.world.merges run = .wrote cfg := of_decide_eq_true at_
    have busy : (c.world.merges run).busy = true := by
      rw [at_]
      rfl
    have alone := merging_alone merging busy
    cases error <;>
      exact merging_setStage alone (fun cfg at_ => by rcases at_ with at_ | at_ <;> cases at_) fun cfg at_ => by cases at_

end Merging

/-! ### Schedules -/

/-- A library that prints as the daemon does, and skips the header. -/
def library : Setup where
  unmarshal text :=
    match plainOnly text with
    | .ok cfg => .ok cfg
    | .error e => if header.isPrefixOf text then plainOnly (text.drop header.length) else .error e
  marshal := render
  path := "/etc/homelab/services.yaml"
  defaultPath := "/tmp/defaults.yaml"

theorem library_reads : ReadsPlain library.unmarshal := by
  intro text node cfg read decoded
  have plain := plainOnly_reads text node cfg read decoded
  simp only [library, plain]

def Host.answer (S : Setup) (o : Outside) (h : Host) : (op : Op) → op.Ans
  | .ask .loadConfig => S.load (.ok h.world.file)
  | op => o.answer h.world op

theorem host_schedule (check : Chronicle → Place → Happening → Bool) (w : World)
    (moves : List (Machine.Move Actor Outer Outside)) (shows : Chronicle × Place → Bool)
    (h : (Machine.play (host library) (Host.answer library) check ([], begun library w none 1) moves).any shows =
    true) :
    ∃ hist c, (host library).Run (fun h c e => check h c e = true) (begun library w none 1) hist c ∧
    shows (hist, c) = true :=
  Machine.play_any _ _ _ h

end LostUpdate
end HomelabDaemon
