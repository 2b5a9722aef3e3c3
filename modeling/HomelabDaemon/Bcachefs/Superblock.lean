import HomelabDaemon.Strings

/-!
# Superblocks

What `bcachefs show-super` prints about a device and all members of its pool.
-/

namespace HomelabDaemon.Bcachefs
open Strings

structure ParsedDevice where
  index : Str := []
  path : Str := []
  model : Str := []
  label : Str := []
  deriving DecidableEq

structure ParsedSuper where
  uuid : Str := []
  label : Str := []
  dataReplicas : Int := 0
  metadataReplicas : Int := 0
  foregroundTarget : Str := []
  metadataTarget : Str := []
  backgroundTarget : Str := []
  devices : List ParsedDevice := []
  deriving DecidableEq

/-- The first word after a key, on a line that has the key. -/
def wordAfter (key line : Str) : Option Str :=
  match cut key line with
  | some (_, after) => (fields (trimSpace after)).head?
  | none => none

/-- A label, which reads `(none)` where there is none. -/
def labelOf (word : Str) : Str := if word = "(none)".toList then [] else word

/-- The device that a line starts, if it starts one. -/
def parseDevice (line : Str) : Option ParsedDevice :=
  if contains line ":".toList && !contains line "Device index:".toList then
    match cut "Device ".toList line with
    | none => none
    | some (_, after) =>
      match cut ":".toList after with
      | none => none
      | some (devNum, rest) =>
        let words := fields rest
        some { index := trimSpace devNum, path := words.headD [], model := (words.drop 1).headD [] }
  else none

/-- A line below a device line. -/
def parseDeviceField (line : Str) (dev : ParsedDevice) : ParsedDevice :=
  match wordAfter "Label:".toList line with
  | some word => { dev with label := labelOf word }
  | none => dev

/-- The number after a key; another word leaves what is there. -/
def numberAfter (key line : Str) (old : Int) : Int := ((wordAfter key line).bind scanInt).getD old

/-- A line above all device lines. -/
def parseField (line : Str) (super : ParsedSuper) : ParsedSuper where
  uuid := (wordAfter "External UUID:".toList line).getD super.uuid
  label := if contains line "Device ".toList then super.label
    else ((wordAfter "Label:".toList line).map labelOf).getD super.label
  dataReplicas := numberAfter "data_replicas:".toList line super.dataReplicas
  metadataReplicas := numberAfter "metadata_replicas:".toList line super.metadataReplicas
  foregroundTarget := (wordAfter "foreground_target:".toList line).getD super.foregroundTarget
  metadataTarget := (wordAfter "metadata_target:".toList line).getD super.metadataTarget
  backgroundTarget := (wordAfter "background_target:".toList line).getD super.backgroundTarget
  devices := super.devices

def parseLine (super : ParsedSuper) (line : Str) : ParsedSuper :=
  let devices := super.devices ++ (parseDevice line).toList
  if devices = [] then parseField line super
  else { super with devices := devices.modify (devices.length - 1) (parseDeviceField line) }

def parseSuper (output : Str) : ParsedSuper := (lines output).foldl parseLine {}

/-- Where a disk's data and metadata go, by the group of its label. -/
def determineDiskTargets (diskLabel fgTarget metaTarget bgTarget : Str) : Str × Str :=
  if diskLabel = [] then ([], [])
  else
    let group := match cut ".".toList diskLabel with
      | some (before, _) => before
      | none => diskLabel
    let demoted := fgTarget = "ssd".toList ∧ group = "hdd".toList
    (if fgTarget ≠ [] ∧ group = fgTarget then "foreground".toList
      else if bgTarget ≠ [] ∧ group = bgTarget then "background".toList
      else if demoted then "background".toList else [],
     if metaTarget ≠ [] ∧ group = metaTarget then "foreground".toList
      else if demoted then "background".toList else [])

end HomelabDaemon.Bcachefs
