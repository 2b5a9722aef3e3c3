import HomelabDaemon.Operations

/-!
# Writing the configuration

The text that `writeConfig` builds, line by line, and its way to the disk: a temporary file
that is renamed over services.yaml.
-/

namespace HomelabDaemon
open Concurrency Program

/-- `%t`. -/
def printBool (b : Bool) : String := if b then "true" else "false"

/-- `%d`. -/
def printInt (n : Int) : String := toString n

/-- A line that is printed only for a string that is not empty. -/
def optionalLine (key value : String) : List String :=
  if value = "" then [] else [key ++ value]

/-- A list and its key, printed only if it has items. -/
def listLines (key : String) (items : List String) : List String :=
  if items = [] then [] else key :: items.map ("      - " ++ ·)

def poolLines (p : StoragePoolConfig) : List String :=
  ["    - uuid: " ++ p.uuid, "      mountpoint: " ++ p.mountpoint] ++
  optionalLine "      options: " p.options ++
  ["      auto_mount: " ++ printBool p.autoMount]

def serviceLines (s : Service) : List String :=
  ["  - unit: " ++ s.unit,
   "    enabled: " ++ printBool s.enabled,
   "    order: " ++ printInt s.order,
   "    boot_delay: " ++ printInt s.bootDelay,
   "    restart_delay: " ++ printInt s.restartDelay,
   "    restart: " ++ (if s.restart = "" then "no" else s.restart)] ++
  listLines "    depends_on:" s.dependsOn ++
  listLines "    requires_mount:" s.requiresMounts

def backupLines (b : Backup) : List String :=
  ["  - unit: " ++ b.unit, "    enabled: " ++ printBool b.enabled] ++
  optionalLine "    schedule: " b.schedule ++
  optionalLine "    healthcheck_uuid: " b.healthcheckUUID ++
  optionalLine "    pause_service: " b.pauseService ++
  listLines "    depends_on:" b.dependsOn ++
  listLines "    requires_mount:" b.requiresMounts

def configLines (cfg : Config) : List String :=
  ["version: 1"] ++
  (if cfg.storage.pools = [] then [] else ["storage:", "  pools:"] ++ cfg.storage.pools.flatMap poolLines) ++
  ["services:"] ++ cfg.services.flatMap serviceLines ++
  (if cfg.backups = [] then [] else "backups:" :: cfg.backups.flatMap backupLines)

/-- The content of the buffer. -/
def render (cfg : Config) : Text :=
  (configLines cfg).flatMap fun line => line.toList ++ ['\n']

/-- The deferred cleanup, while `tmpFile` is set. -/
def cleanup (file : Nat) (error : String) : Prog (Option String) := do
  let _ ← perform (Op.closeTemp file)
  let _ ← perform (Op.removeTemp file)
  return some error

/-- `writeConfig`: none, or the error of the step that failed. After a failed close or rename
the temporary file stays. -/
def writeConfig : Prog (Option String) := do
  let cfg ← readConfig
  let created ← perform Op.createTemp
  match created with
  | .error error => return some error
  | .ok file => do
    let written ← perform (Op.writeTemp file (render cfg))
    match written with
    | some error => cleanup file error
    | none => do
      let synced ← perform (Op.syncTemp file)
      match synced with
      | some error => cleanup file error
      | none => do
        let closed ← perform (Op.closeTemp file)
        if closed.isSome then return closed else do
          let chmodded ← perform (Op.chmodTemp file)
          match chmodded with
          | some error => cleanup file error
          | none => perform (Op.renameTemp file)

/-! ### What it may do -/

def Op.onFiles : Op → Prop
  | .config | .createTemp | .writeTemp _ _ | .syncTemp _ | .closeTemp _ | .chmodTemp _ | .renameTemp _
  | .removeTemp _ => True
  | _ => False

theorem cleanup_uses (file : Nat) (error : String) : (cleanup file error).Uses Op.onFiles :=
  .bind (.perform trivial) fun _ => .bind (.perform trivial) fun _ => .done _

theorem writeConfig_uses : writeConfig.Uses Op.onFiles := by
  refine .bind (.perform trivial) fun cfg => .bind (.perform trivial) fun created => ?_
  cases created with
  | error error => exact .done _
  | ok file =>
    refine .bind (.perform trivial) fun written => ?_
    cases written with
    | some error => exact cleanup_uses file error
    | none =>
      refine .bind (.perform trivial) fun synced => ?_
      cases synced with
      | some error => exact cleanup_uses file error
      | none =>
        refine .bind (.perform trivial) fun closed => ?_
        split
        · exact .done _
        refine .bind (.perform trivial) fun chmodded => ?_
        cases chmodded with
        | some error => exact cleanup_uses file error
        | none => exact .perform trivial

end HomelabDaemon
