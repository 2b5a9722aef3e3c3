import HomelabDaemon.Bcachefs.Superblock
import Mathlib.Data.List.Perm.Basic

/-!
# Pool discovery

`DiscoverPools` probes the candidates among the disks, and keeps the last superblock for the
disks that it lists.
-/

namespace HomelabDaemon.Bcachefs
open Strings

/-- A device as `lsblk` prints it. -/
structure LsblkDevice where
  name : Str
  path : Str
  size : Nat := 0
  type : Str := []
  model : Str := []
  serial : Str := []
  fstype : Str := []
  mountpoint : Str := []
  mountpoints : List Str := []
  label : Str := []
  children : List LsblkDevice := []

structure Disk where
  name : Str
  path : Str
  size : Nat := 0
  type : Str := []
  model : Str := []
  serial : Str := []
  fstype : Str := []
  mountpoint : Str := []
  label : Str := []
  hasChildren : Bool := false
  bcachefsLabel : Str := []
  dataTarget : Str := []
  metadataTarget : Str := []
  friendlyName : Str := []
  deriving DecidableEq

section Disks
variable (friendlyName : Str → Str → Nat → Str)

def diskOf (dev : LsblkDevice) : Disk where
  name := dev.name
  path := dev.path
  size := dev.size
  type := dev.type
  model := trimSpace dev.model
  serial := trimSpace dev.serial
  fstype := dev.fstype
  mountpoint := if dev.mountpoint = [] then dev.mountpoints.headD [] else dev.mountpoint
  label := dev.label
  hasChildren := !dev.children.isEmpty
  friendlyName := friendlyName dev.path (trimSpace dev.model) dev.size

mutual

def extractDisk : LsblkDevice → List Disk
  | dev@⟨_, _, _, _, _, _, _, _, _, _, children⟩ => diskOf friendlyName dev :: extractDisks children

/-- A device stands before its children. -/
def extractDisks : List LsblkDevice → List Disk
  | [] => []
  | dev :: devices => extractDisk dev ++ extractDisks devices

end

end Disks

/-- What the host answers during one scan. -/
structure Probes where
  /-- The output of `lsblk`. -/
  lsblk : Except String (List LsblkDevice)
  friendlyName : Str → Str → Nat → Str := fun _ _ _ => []
  /-- `bcachefs show-super` for a device. -/
  showSuper : Str → Except String Str
  /-- The text of /proc/mounts. -/
  mounts : Except String Str := .ok []

def getDisks (probes : Probes) : Except String (List Disk) := probes.lsblk.map (extractDisks probes.friendlyName)

/-- The mountpoint on a line of /proc/mounts, for the devices of a mounted pool. -/
def mountOn (devicePath line : Str) : Option Str :=
  match fields line with
  | devices :: mountpoint :: kind :: _ =>
    if kind = "bcachefs".toList ∧ devicePath ∈ devices.splitOn ':' then some mountpoint else none
  | _ => none

def findBcachefsMount (probes : Probes) (devicePath : Str) : Str :=
  match probes.mounts with
  | .error _ => []
  | .ok text => ((lines text).findSome? (mountOn devicePath)).getD []

/-! ### Pools -/

structure Pool where
  uuid : Str
  state : Str := "unmounted".toList
  mountdir : Str := []
  label : Str := []
  dataReplicas : Int := 0
  metadataReplicas : Int := 0
  disks : List Disk := []
  deriving DecidableEq

/-- A candidate for a probe: `lsblk` may not know the file system of a device that is offline. -/
def isCandidate (d : Disk) : Bool := d.fstype = "bcachefs".toList ∨ d.fstype = []

/-- Whether the cached superblock lists the disk. -/
def lists (super : ParsedSuper) (d : Disk) : Bool :=
  super.devices.any fun dev =>
    d.path == dev.path || Strings.hasSuffix d.path dev.path || (dev.path != [] && Strings.hasSuffix dev.path d.name)

/-- The device line of the disk. -/
def deviceOf (super : ParsedSuper) (d : Disk) : Option ParsedDevice :=
  super.devices.find? fun dev =>
    d.path == dev.path || (dev.path != [] && Strings.hasSuffix d.path dev.path) ||
    (d.name != [] && Strings.hasSuffix dev.path d.name)

def labelled (super : ParsedSuper) (d : Disk) : Disk :=
  match deviceOf super d with
  | none => d
  | some dev =>
    let targets := determineDiskTargets dev.label super.foregroundTarget super.metadataTarget super.backgroundTarget
    { d with bcachefsLabel := dev.label, dataTarget := targets.1, metadataTarget := targets.2 }

def newPool (super : ParsedSuper) : Pool where
  uuid := super.uuid
  label := super.label
  dataReplicas := super.dataReplicas
  metadataReplicas := super.metadataReplicas

/-- The pool with one disk more; /proc/mounts comes before the mountpoint that `lsblk` gives. -/
def joined (probes : Probes) (super : ParsedSuper) (d : Disk) (p : Pool) : Pool :=
  let canon := findBcachefsMount probes d.path
  let mountdir := if canon ≠ [] then canon else d.mountpoint
  { p with
    state := if mountdir ≠ [] then "mounted".toList else p.state
    mountdir := if mountdir ≠ [] then mountdir else p.mountdir
    disks := p.disks ++ [labelled super d] }

/-- The pool map, in order of insertion, with the disk in its pool. -/
def addDisk (probes : Probes) (super : ParsedSuper) (d : Disk) : List Pool → List Pool
  | [] => [joined probes super d (newPool super)]
  | p :: pools => if p.uuid = super.uuid then joined probes super d p :: pools else p :: addDisk probes super d pools

structure Scan where
  super : ParsedSuper := {}
  superValid : Bool := false
  poolMap : List Pool := []

def Scan.add (scan : Scan) (probes : Probes) (super : ParsedSuper) (d : Disk) : Scan where
  super := super
  superValid := true
  poolMap := addDisk probes super d scan.poolMap

def scanDisk (probes : Probes) (scan : Scan) (d : Disk) : Scan :=
  if !isCandidate d then scan
  else if scan.superValid && lists scan.super d then scan.add probes scan.super d
  else match probes.showSuper d.path with
    | .error _ => { scan with superValid := false }
    | .ok out =>
      let super := parseSuper out
      if super.uuid = [] then { scan with super := super, superValid := false } else scan.add probes super d

/-- The pools, in the order in which the map may give them back. -/
def discoverPools (probes : Probes) : Except String (List Pool) := do
  let disks ← getDisks probes
  return (disks.foldl (scanDisk probes) {}).poolMap

/-- The superblock that a disk itself answers with, if it is a member of a pool. -/
def superOf (probes : Probes) (d : Disk) : Option ParsedSuper :=
  match probes.showSuper d.path with
  | .error _ => none
  | .ok out => if (parseSuper out).uuid = [] then none else some (parseSuper out)

/-- Every candidate is probed. -/
def probeDisk (probes : Probes) (pools : List Pool) (d : Disk) : List Pool :=
  if !isCandidate d then pools
  else match superOf probes d with
    | none => pools
    | some super => addDisk probes super d pools

def uncachedPools (probes : Probes) : Except String (List Pool) := do
  let disks ← getDisks probes
  return disks.foldl (probeDisk probes) []

end HomelabDaemon.Bcachefs
