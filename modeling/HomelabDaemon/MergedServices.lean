import HomelabDaemon.BlockedReason
import HomelabDaemon.ImageUpdates
import HomelabDaemon.Sorting
import HomelabDaemon.SystemdProps

/-!
# Services and their containers

The rows of the merged services and of the overview, which join the configuration with what the update checker
knows of containers. The join goes by the unit's name without its prefix and suffixes.
-/

namespace HomelabDaemon.MergedServices
open Strings SystemdProps BlockedReason Updates

structure PortBinding where
  containerPort : Int
  hostPort : Int
  protocol : String
  hostIP : String
  deriving DecidableEq

structure MetadataEntry where
  image : Str
  description : Str
  revisionURL : Str
  ports : List PortBinding
  deriving DecidableEq

structure PortMapping where
  containerPort : Int
  hostPort : Int
  protocol : String
  hostIP : String
  deriving DecidableEq

structure ServiceInfo where
  name : String
  type : String
  image : Str
  activeState : Str
  subState : Str
  description : Str
  unitName : String
  updateAvailable : Bool
  currentVersion : Str
  remoteVersion : Str
  daemonManaged : Bool
  restartPolicy : String
  bootOrder : Int
  bootDelay : Int
  restartDelay : Int
  dependsOn : List String
  userStopped : Bool
  daemonEnabled : Bool
  failureCount : Nat
  backoffSeconds : Nat
  blockedReason : String
  requiresMounts : List String
  iconURL : String
  homepageURL : String
  startedAt : Str
  portMappings : List PortMapping

/-- What a request sees; `parse` is `time.Parse` with the layout of systemd's timestamps, in UTC. -/
structure Snapshot where
  moment : Moment
  systemctl : Systemctl
  parse : Str → Option Rfc3339.DateTime
  updates : String → Option UpdateInfo
  mdata : String → Option MetadataEntry

def or (v fallback : Str) : Str := if v = [] then fallback else v

def toAPIPortMappings (ports : List PortBinding) : List PortMapping :=
  ports.map fun p =>
    { containerPort := p.containerPort, hostPort := p.hostPort, protocol := p.protocol, hostIP := p.hostIP }

/-- The name that a unit is joined by. -/
def serviceName (u : String) : String := trimSuffix (trimSuffix (trimPrefix u "podman-") ".service") ".socket"

def servicePropNames : List Str :=
  [idName, "ActiveState".toList, "SubState".toList, "Description".toList, "ActiveEnterTimestamp".toList]

namespace Snapshot
variable (s : Snapshot)

def startedAt (activeState timestamp : Str) : Str :=
  if activeState = "active".toList then
    let timestamp := trimSpace timestamp
    if timestamp = [] ∨ timestamp = "n/a".toList then []
    else match s.parse timestamp with
      | some t => Rfc3339.format t
      | none => []
  else []

/-- The body of the loop over the services. -/
def serviceInfo (unitProps : Str → Option Props) (svc : Service) : ServiceInfo :=
  let u := svc.unit
  let name := serviceName u
  let props := (unitProps u.toList).getD empty
  let activeState := value props "ActiveState"
  let isDocker := hasPrefix u "podman-"
  let entry := if isDocker then s.mdata name else none
  let up := (s.updates name).getD {}
  let b := s.moment.world.breaker u
  { name
    type := if isDocker then "Docker" else "Native"
    image := (entry.map (·.image)).getD []
    activeState := or activeState "inactive".toList
    subState := or (value props "SubState") "dead".toList
    description := (entry.map (·.description)).getD (value props "Description")
    unitName := u
    updateAvailable := up.hasUpdate
    currentVersion := or up.currentVersion up.localID
    remoteVersion := or up.remoteVersion up.remoteID
    daemonManaged := true
    restartPolicy := svc.restart
    bootOrder := svc.order
    bootDelay := svc.bootDelay
    restartDelay := svc.restartDelay
    dependsOn := svc.dependsOn
    userStopped := decide (u ∈ s.moment.world.userStopped)
    daemonEnabled := svc.enabled
    failureCount := b.consecutive
    backoffSeconds :=
      if b.backoffUntil ≠ 0 ∧ s.moment.world.now < b.backoffUntil then (b.backoffUntil - s.moment.world.now) / second
        else 0
    blockedReason := s.moment.reason svc (String.ofList activeState)
    requiresMounts := svc.requiresMounts
    iconURL := svc.iconURL
    homepageURL := svc.homepageURL
    startedAt := s.startedAt activeState (value props "ActiveEnterTimestamp")
    portMappings := (entry.map fun e => toAPIPortMappings e.ports).getD [] }

def serviceInfos (services : List Service) : List ServiceInfo :=
  services.map (s.serviceInfo (fetchSystemdProps s.systemctl (services.map (·.unit.toList)) servicePropNames))

end Snapshot

def less (a b : ServiceInfo) : Bool := if a.type ≠ b.type then a.type < b.type else a.name < b.name

/-- An answer of `GET /api/services/merged`. -/
def ServicesMerged (s : Snapshot) (services : List Service) (out : List ServiceInfo) : Prop :=
  ∃ sorting : Sorting.SortSlice ServiceInfo, out = sorting.sort less (s.serviceInfos services)

/-- The services in an answer of `GET /api/overview`. -/
def OverviewServices (s : Snapshot) (services : List Service) (out : List ServiceInfo) : Prop :=
  ∃ sorting : Sorting.SortSlice ServiceInfo, out = sorting.sort less (s.serviceInfos services)

/-! ### What a row shows of a container -/

structure Shown where
  updateAvailable : Bool
  currentVersion : Str
  remoteVersion : Str
  image : Str
  portMappings : List PortMapping
  deriving DecidableEq

def ServiceInfo.shown (row : ServiceInfo) : Shown :=
  { updateAvailable := row.updateAvailable, currentVersion := row.currentVersion, remoteVersion := row.remoteVersion,
    image := row.image, portMappings := row.portMappings }

/-- What the entries of a container show, and empty fields without them. -/
def shownOf (up : Option UpdateInfo) (entry : Option MetadataEntry) : Shown :=
  { updateAvailable := (up.getD {}).hasUpdate
    currentVersion := or (up.getD {}).currentVersion (up.getD {}).localID
    remoteVersion := or (up.getD {}).remoteVersion (up.getD {}).remoteID
    image := (entry.map (·.image)).getD []
    portMappings := (entry.map fun e => toAPIPortMappings e.ports).getD [] }

structure ByContainer (s : Snapshot) (row : ServiceInfo) : Prop where
  container : ∀ c, row.unitName = "podman-" ++ c ++ ".service" → row.shown = shownOf (s.updates c) (s.mdata c)
  other : (∀ c, row.unitName ≠ "podman-" ++ c ++ ".service") → row.shown = shownOf none none

/-- Each service has one row, which shows its own container and no other. -/
structure JoinsByContainer (s : Snapshot) (services : List Service) (out : List ServiceInfo) : Prop where
  once : (out.map (·.unitName)).Perm (services.map (·.unit))
  rows : ∀ row ∈ out, ByContainer s row

/-- The entries under the unit's name show what the unit's container shows. -/
structure NameShows (s : Snapshot) (u : String) : Prop where
  /-- Only the name of a container "x.socket" is another. -/
  socket : ∀ c, u = "podman-" ++ c ++ ".service" → hasSuffix c ".socket" = true →
    shownOf (s.updates (trimSuffix c ".socket")) (s.mdata (trimSuffix c ".socket")) = shownOf (s.updates c) (s.mdata c)
  other : (∀ c, u ≠ "podman-" ++ c ++ ".service") →
    shownOf (s.updates (serviceName u)) (if hasPrefix u "podman-" then s.mdata (serviceName u) else none) =
      shownOf none none

theorem hasPrefix_append (pre s : String) : hasPrefix (pre ++ s) pre = true := by
  rw [hasPrefix, String.toList_append, List.isPrefixOf_iff_prefix]
  exact List.prefix_append _ _

theorem trimPrefix_append (pre s : String) : trimPrefix (pre ++ s) pre = s := by
  rw [trimPrefix, if_pos (hasPrefix_append pre s), String.toList_append, List.drop_left, String.ofList_toList]

theorem trimSuffix_append (s suffix : String) : trimSuffix (s ++ suffix) suffix = s := by
  rw [trimSuffix, if_pos (hasSuffix_append s suffix), String.toList_append, List.length_append, Nat.add_sub_cancel,
    List.take_left, String.ofList_toList]

theorem hasPrefix_container (c : String) : hasPrefix ("podman-" ++ c ++ ".service") "podman-" = true := by
  rw [String.append_assoc]
  exact hasPrefix_append _ _

theorem serviceName_container (c : String) : serviceName ("podman-" ++ c ++ ".service") = trimSuffix c ".socket" := by
  rw [serviceName, String.append_assoc, trimPrefix_append, trimSuffix_append]

section Rows
variable {s : Snapshot} {services : List Service} {out : List ServiceInfo}

theorem serviceInfo_shown (unitProps : Str → Option Props) (svc : Service) :
    (s.serviceInfo unitProps svc).shown = shownOf (s.updates (serviceName svc.unit))
      (if hasPrefix svc.unit "podman-" then s.mdata (serviceName svc.unit) else none) := rfl

theorem byContainer_iff (unitProps : Str → Option Props) (svc : Service) :
    ByContainer s (s.serviceInfo unitProps svc) ↔ NameShows s svc.unit := by
  have shown := serviceInfo_shown (s := s) unitProps svc
  refine ⟨fun right => ⟨fun c unit _ => ?_, fun other => shown ▸ right.other other⟩,
    fun names => ⟨fun c unit => ?_, fun other => shown.trans (names.other other)⟩⟩
  · have own := right.container c unit
    rw [shown, unit, serviceName_container, if_pos (hasPrefix_container c)] at own
    exact own
  · change svc.unit = _ at unit
    rw [shown, unit, serviceName_container, if_pos (hasPrefix_container c)]
    cases socket : hasSuffix c ".socket" with
    | true => exact names.socket c unit socket
    | false => rw [trimSuffix, if_neg (by rw [socket]; exact Bool.false_ne_true)]

theorem joins_iff (perm : out.Perm (s.serviceInfos services)) :
    JoinsByContainer s services out ↔ ∀ svc ∈ services, NameShows s svc.unit := by
  refine ⟨fun joins svc member => ?_, fun names => ⟨?_, fun row member => ?_⟩⟩
  · have inRows : s.serviceInfo (fetchSystemdProps s.systemctl (services.map (·.unit.toList)) servicePropNames) svc ∈
        s.serviceInfos services := List.mem_map_of_mem member
    exact (byContainer_iff _ svc).mp (joins.rows _ (perm.mem_iff.mpr inRows))
  · have units := perm.map (·.unitName)
    rwa [Snapshot.serviceInfos, List.map_map] at units
  · obtain ⟨svc, inServices, rfl⟩ := List.mem_map.mp (perm.mem_iff.mp member)
    exact (byContainer_iff _ svc).mpr (names svc inServices)

end Rows

/-- In both answers each row shows its own container exactly when every unit's name leads to it. -/
theorem services_join_iff (s : Snapshot) (services : List Service) (out : List ServiceInfo)
    (answered : ServicesMerged s services out ∨ OverviewServices s services out) :
    JoinsByContainer s services out ↔ ∀ svc ∈ services, NameShows s svc.unit := by
  obtain ⟨sorting, rfl⟩ | ⟨sorting, rfl⟩ := answered
  · exact joins_iff (sorting.perm _ _)
  · exact joins_iff (sorting.perm _ _)

namespace Demo

def snapshot : Snapshot where
  moment := { world := { cfg := {} }, mounted := fun _ => true, status := none }
  systemctl _ := none
  parse _ := none
  updates c := if c = "jellyfin" then some { hasUpdate := true } else none
  mdata _ := none

def native : List Service := [{ unit := "jellyfin.service" }]

def container : List Service := [{ unit := "podman-jellyfin.service" }]

theorem single (svc : Service) : ServicesMerged snapshot [svc] (snapshot.serviceInfos [svc]) :=
  ⟨.merge ServiceInfo, (List.perm_singleton.mp ((Sorting.SortSlice.merge ServiceInfo).perm less _)).symm⟩

end Demo

theorem native_unit_shows_container : ¬ ∀ s services out,
    ServicesMerged s services out ∨ OverviewServices s services out → JoinsByContainer s services out := by
  intro joins
  have names := (joins_iff (.refl _)).mp (joins Demo.snapshot Demo.native _ (.inl (Demo.single _))) _ List.mem_cons_self
  have shown := names.other fun c unit => by
    have starts := hasPrefix_container c
    rw [← unit] at starts
    revert starts
    decide
  revert shown
  decide

theorem container_unit_joins : JoinsByContainer Demo.snapshot Demo.container
    (Demo.snapshot.serviceInfos Demo.container) ↔ ∀ svc ∈ Demo.container, NameShows Demo.snapshot svc.unit :=
  services_join_iff Demo.snapshot Demo.container _ (.inl (Demo.single _))

end HomelabDaemon.MergedServices
