import HomelabDaemon.ActiveStates
import HomelabDaemon.Config
import HomelabDaemon.Rfc3339
import HomelabDaemon.Strings.Split

/-!
# The properties of many units at once

The overview asks systemctl once about all backups, and finds each unit's section of the answer by
the `Id` in it. The list of backups asks about one unit after the other.
-/

namespace HomelabDaemon.SystemdProps
open Strings

abbrev Props := Str → Option Str

def empty : Props := fun _ => none

/-- The value in a map, or the empty text. -/
def value (m : Props) (property : String) : Str := (m property.toList).getD []

def idName : Str := "Id".toList

def showArgs (units props : List Str) : List Str :=
  "show".toList :: units ++ ["--property=".toList ++ [','].intercalate props]

def readLine (m : Props) (line : Str) : Props :=
  match cut ['='] line with
  | some (k, v) => Function.update m k (some v)
  | none => m

/-- The loop of the list of backups over the lines of an answer about one unit. -/
def readUnit (stdout : Str) : Props := (lines stdout).foldl readLine empty

def readSectionLine (found : Props × Str) (line : Str) : Props × Str :=
  match cut ['='] line with
  | some (k, v) => (Function.update found.1 k (some v), if k = idName then v else found.2)
  | none => found

def readSection (result : Str → Option Props) (text : Str) : Str → Option Props :=
  if text = [] then result
  else
    let (m, id) := (lines text).foldl readSectionLine (empty, [])
    if id ≠ [] then Function.update result id (some m) else result

/-- What a call prints, if it succeeds. -/
abbrev Systemctl := List Str → Option Str

def fetchSystemdProps (systemctl : Systemctl) (units props : List Str) : Str → Option Props :=
  if units = [] then fun _ => none
  else match systemctl (showArgs units props) with
    | none => fun _ => none
    | some stdout => (split ['\n', '\n'] (trimSpace stdout)).foldl readSection fun _ => none

structure BackupStatus where
  unit : String
  enabled : Bool
  schedule : String
  dependsOn : List String
  requiresMounts : List String
  healthcheckUUID : String
  pauseService : String
  activeState : Str := []
  result : Str := []
  lastRunStart : Str := []
  lastRunEnd : Str := []
  nextRun : Str := []

/-- The times of a `cron.Entry`; the zero time of an entry that has not fired is none. -/
structure Entry where
  prev : Option Rfc3339.DateTime
  next : Rfc3339.DateTime

structure Schedules where
  getEntry : String → Option Entry
  lastRunStart : String → Option Rfc3339.DateTime

namespace BackupStatus

def new (b : Backup) : BackupStatus where
  unit := b.unit
  enabled := b.enabled
  schedule := b.schedule
  dependsOn := b.dependsOn
  requiresMounts := b.requiresMounts
  healthcheckUUID := b.healthcheckUUID
  pauseService := b.pauseService

/-- `parse` is `time.Parse` with the layout "Mon 2006-01-02 15:04:05 MST". -/
def withProps (parse : Str → Option Rfc3339.DateTime) (bs : BackupStatus) (m : Props) : BackupStatus :=
  let started := value m "ExecMainStartTimestamp"
  let exited := value m "ExecMainExitTimestamp"
  let bs := { bs with activeState := value m "ActiveState", result := value m "Result" }
  let bs := if started = [] then bs else match parse started with
    | some t => { bs with lastRunStart := Rfc3339.format t }
    | none => bs
  if exited = [] then bs else { bs with lastRunEnd := exited }

def withSchedule (scheduler : Schedules) (bs : BackupStatus) : BackupStatus :=
  let bs := match scheduler.getEntry bs.unit with
    | none => bs
    | some entry =>
      let bs := match entry.prev with
        | some prev => { bs with lastRunStart := Rfc3339.format prev }
        | none => bs
      { bs with nextRun := Rfc3339.format entry.next }
  if bs.lastRunStart = [] then
    match scheduler.lastRunStart bs.unit with
    | some started => { bs with lastRunStart := Rfc3339.format started }
    | none => bs
  else bs

end BackupStatus

def unitProps : List Str :=
  ["ActiveState".toList, "Result".toList, "ExecMainStartTimestamp".toList, "ExecMainExitTimestamp".toList]

section Handlers
variable (systemctl : Systemctl) (parse : Str → Option Rfc3339.DateTime) (scheduler : Schedules) (backups : List Backup)

/-- `GET /api/backups`. -/
def getBackups : List BackupStatus :=
  backups.map fun b =>
    let bs := BackupStatus.new b
    let bs := match systemctl (showArgs [b.unit.toList] unitProps) with
      | some stdout => bs.withProps parse (readUnit stdout)
      | none => bs
    bs.withSchedule scheduler

/-- The backups of `GET /api/overview`. -/
def overviewBackups : List BackupStatus :=
  let backupProps := fetchSystemdProps systemctl (backups.map (·.unit.toList)) (idName :: unitProps)
  backups.map fun b =>
    let bs := BackupStatus.new b
    let bs := match backupProps b.unit.toList with
      | some m => bs.withProps parse m
      | none => bs
    bs.withSchedule scheduler

end Handlers

/-! ### What systemctl prints -/

structure IsProperty (p : Str) : Prop where
  word : IsWord p
  noEquals : '=' ∉ p

/-- The values of the properties of a unit, as far as they are requested. -/
structure Reports (unit : Str) (props : List Str) (values : Str → Str) : Prop where
  unit_nonempty : unit ≠ []
  id : values idName = unit
  unbroken : ∀ p ∈ props, '\n' ∉ values p
  trimmed : ∀ p ∈ props, trimSpace (values p) = values p

def lineOf (values : Str → Str) (p : Str) : Str := p ++ '=' :: values p

def textOf (values : Str → Str) (order : List Str) : Str := (order.map (lineOf values)).flatMap (· ++ ['\n'])

/-- The answers to a request: a text for each unit, with the properties in any order, and a blank
line in between. -/
inductive Prints (state : Str → Str → Str) (props : List Str) : List Str → Str → Prop where
  | last {unit : Str} {order : List Str} (perm : order.Perm props) : Prints state props [unit]
      (textOf (state unit) order)
  | cons {unit next : Str} {order units : List Str} {text : Str} (perm : order.Perm props)
    (rest : Prints state props (next :: units) text) :
    Prints state props (unit :: next :: units) (textOf (state unit) order ++ '\n' :: text)

/-- A systemctl that succeeds when it is asked about at least one unit. -/
def Answers (systemctl : Systemctl) (state : Str → Str → Str) (units props : List Str) : Prop :=
  units ≠ [] → ∃ stdout, systemctl (showArgs units props) = some stdout ∧ Prints state props units stdout

section Reading
variable {values : Str → Str} {unit : Str} {props order : List Str}

local instance lawful : LawfulBEq Str := inferInstance

/-- The map with the values of these properties. -/
def mapOf (values : Str → Str) (props : List Str) : Props := fun p => if p ∈ props then some (values p) else none

theorem cut_lineOf {p : Str} (property : IsProperty p) (values : Str → Str) :
    cut ['='] (lineOf values p) = some (p, values p) :=
  cut_single property.noEquals

theorem lineOf_unbroken {p : Str} (property : IsProperty p) (unbroken : '\n' ∉ values p) : '\n' ∉ lineOf values p := by
  simp [lineOf, property.word.unbroken, unbroken]

theorem lineOf_framed {p : Str} (property : IsProperty p) (trimmed : trimSpace (values p) = values p) :
    Framed (lineOf values p) := by
  refine ⟨⟨p, property.word, List.prefix_append p _⟩, ?_⟩
  by_cases nonempty : values p = []
  · refine ⟨['='], by decide, ?_⟩
    rw [lineOf, nonempty]
    exact List.suffix_append p _
  · refine ⟨[(values p).getLast nonempty], trimmed_last trimmed nonempty, ?_⟩
    have last : [(values p).getLast nonempty] <:+ values p :=
      ⟨(values p).dropLast, List.dropLast_append_getLast nonempty⟩
    exact last.trans ((List.suffix_cons '=' _).trans (List.suffix_append p _))

theorem read_lines (properties : ∀ p ∈ order, IsProperty p) (m : Props) :
    (order.map (lineOf values)).foldl readLine m =
    order.foldl (fun m p => Function.update m p (some (values p))) m := by
  induction order generalizing m with
  | nil => rfl
  | cons p order ih =>
    rw [List.map_cons, List.foldl_cons, List.foldl_cons, ih fun q member =>
      properties q (List.mem_cons_of_mem p member),
      readLine, cut_lineOf (properties p List.mem_cons_self)]

theorem read_order (properties : ∀ p ∈ order, IsProperty p) :
    (order.map (lineOf values)).foldl readLine empty = mapOf values order := by
  funext k
  rw [read_lines properties, ActiveStates.foldl_update fun p => some (values p)]
  by_cases listed : k ∈ order <;> simp [mapOf, empty, listed]

/-- The loop over a section does what the one over an answer does, and finds the last `Id`. -/
theorem read_section (properties : ∀ p ∈ order, IsProperty p) (found : Props × Str) :
    (order.map (lineOf values)).foldl readSectionLine found =
      ((order.map (lineOf values)).foldl readLine found.1, if idName ∈ order then values idName else found.2) := by
  induction order generalizing found with
  | nil => rfl
  | cons p order ih =>
    have cut_ := cut_lineOf (properties p List.mem_cons_self) values
    rw [List.map_cons, List.foldl_cons, List.foldl_cons, ih fun q member =>
      properties q (List.mem_cons_of_mem p member),
      readSectionLine, readLine, cut_]
    by_cases same : p = idName
    · simp [same]
    · by_cases later : idName ∈ order
      · simp [later]
      · simp [later, same, Ne.symm same]

theorem mapOf_perm (perm : order.Perm props) : mapOf values order = mapOf values props := by
  funext p
  simp [mapOf, perm.mem_iff]

variable (properties : ∀ p ∈ props, IsProperty p) (reports : Reports unit props values) (perm : order.Perm props)
include properties reports perm

theorem lines_unbroken : ∀ line ∈ order.map (lineOf values), '\n' ∉ line := by
  intro line member
  obtain ⟨p, inOrder, rfl⟩ := List.mem_map.mp member
  have requested := perm.mem_iff.mp inOrder
  exact lineOf_unbroken (properties p requested) (reports.unbroken p requested)

theorem lines_framed : ∀ line ∈ order.map (lineOf values), Framed line := by
  intro line member
  obtain ⟨p, inOrder, rfl⟩ := List.mem_map.mp member
  have requested := perm.mem_iff.mp inOrder
  exact lineOf_framed (properties p requested) (reports.trimmed p requested)

theorem readUnit_textOf : readUnit (textOf values order) = mapOf values props := by
  have cut_ := lines_text (lines_unbroken properties reports perm) []
  rw [List.append_nil] at cut_
  rw [readUnit, textOf, cut_, List.foldl_append, read_order fun p member => properties p (perm.mem_iff.mp member),
    mapOf_perm perm]
  rfl

/-- The text of a unit without its last line break. -/
def sectionOf (values : Str → Str) (order : List Str) : Str := ['\n'].intercalate (order.map (lineOf values))

omit properties reports in
theorem lines_some (known : idName ∈ props) : order.map (lineOf values) ≠ [] :=
  List.map_eq_nil_iff.not.mpr (List.ne_nil_of_mem (perm.mem_iff.mpr known))

theorem lines_filled : [] ∉ order.map (lineOf values) := by
  intro member
  obtain ⟨w, word, starts⟩ := (lines_framed properties reports perm [] member).starts
  exact word.nonempty (List.prefix_nil.mp starts)

variable (known : idName ∈ props)
include known

theorem section_framed : Framed (sectionOf values order) :=
  Framed.intercalate (lines_framed properties reports perm) (lines_some perm known)

theorem section_fresh : ¬ ['\n', '\n'] <:+: sectionOf values order ++ ['\n'] := by
  rw [sectionOf, ← flatMap_lines (lines_some perm known)]
  exact no_blank_line (lines_unbroken properties reports perm) (lines_filled properties reports perm)

theorem readSection_sectionOf (result : Str → Option Props) :
    readSection result (sectionOf values order) = Function.update result unit (some (mapOf values props)) := by
  have filled : sectionOf values order ≠ [] := by
    intro none
    obtain ⟨w, word, starts⟩ := (section_framed properties reports perm known).starts
    rw [none] at starts
    exact word.nonempty (List.prefix_nil.mp starts)
  have inOrder : ∀ p ∈ order, IsProperty p := fun p member => properties p (perm.mem_iff.mp member)
  have cut_ : lines (sectionOf values order) = order.map (lineOf values) :=
    List.splitOn_intercalate '\n' (lines_unbroken properties reports perm) (lines_some perm known)
  rw [readSection, if_neg filled, cut_, read_section inOrder, if_pos (perm.mem_iff.mpr known), read_order inOrder,
    mapOf_perm perm, reports.id]
  exact if_pos reports.unit_nonempty

end Reading

/-! ### Both ways of asking -/

section Both
variable {state : Str → Str → Str} {units props : List Str} {text : Str} {systemctl : Systemctl}

/-- A section of the answer about many units. -/
def IsSection (state : Str → Str → Str) (props : List Str) (unit s : Str) : Prop :=
  ∃ order : List Str, order.Perm props ∧ s = sectionOf (state unit) order

theorem Prints.sections (known : idName ∈ props) (prints : Prints state props units text) :
    ∃ sections, List.Forall₂ (IsSection state props) units sections ∧ text = ['\n', '\n'].intercalate sections ++
    ['\n'] := by
  induction prints with
  | @last unit order perm =>
    refine ⟨[sectionOf (state unit) order], .cons ⟨order, perm, rfl⟩ .nil, ?_⟩
    rw [List.intercalate_singleton]
    exact flatMap_lines (lines_some perm known)
  | @cons unit next order units text perm rest ih =>
    obtain ⟨sections, each, rfl⟩ := ih
    refine ⟨sectionOf (state unit) order :: sections, .cons ⟨order, perm, rfl⟩ each, ?_⟩
    cases each with
    | @cons _ s _ sections _ _ =>
      have first : textOf (state unit) order = sectionOf (state unit) order ++ ['\n'] :=
        flatMap_lines (lines_some perm known)
      rw [first, List.intercalate_cons_cons]
      simp

variable (known : idName ∈ props) (properties : ∀ p ∈ props, IsProperty p)
  (reports : ∀ unit ∈ units, Reports unit props (state unit))
include known properties reports

theorem read_sections {sections : List Str} (each : List.Forall₂ (IsSection state props) units sections)
    (result : Str → Option Props) : sections.foldl readSection result =
      units.foldl (fun result unit => Function.update result unit (some (mapOf (state unit) props))) result := by
  induction each generalizing result with
  | nil => rfl
  | @cons unit s units sections one each ih =>
    obtain ⟨order, perm, rfl⟩ := one
    rw [List.foldl_cons, List.foldl_cons,
      readSection_sectionOf properties (reports unit List.mem_cons_self) perm known,
      ih fun u member => reports u (List.mem_cons_of_mem unit member)]

theorem sections_sound {sections : List Str} (each : List.Forall₂ (IsSection state props) units sections) :
    ∀ s ∈ sections, Framed s ∧ ¬ ['\n', '\n'] <:+: s ++ ['\n'] := by
  induction each with
  | nil => exact nofun
  | @cons unit s units sections one each ih =>
    obtain ⟨order, perm, rfl⟩ := one
    have report := reports unit List.mem_cons_self
    refine List.forall_mem_cons.mpr ⟨⟨section_framed properties report perm known,
      section_fresh properties report perm known⟩, ?_⟩
    exact ih fun u member => reports u (List.mem_cons_of_mem unit member)

theorem sections_split {sections : List Str} (each : List.Forall₂ (IsSection state props) units sections)
    (some_ : units ≠ []) :
    split ['\n', '\n'] (trimSpace (['\n', '\n'].intercalate sections ++ ['\n'])) = sections := by
  have sound := sections_sound known properties reports each
  have filled : sections ≠ [] := by
    rintro rfl
    cases each
    exact some_ rfl
  rw [(Framed.intercalate (fun s member => (sound s member).1) filled).trimSpace,
    split_intercalate (List.cons_ne_nil _ _) (fun s member => (sound s member).2) filled]

theorem fetch_answers (answers : Answers systemctl state units props) {unit : Str} (listed : unit ∈ units) :
    fetchSystemdProps systemctl units props unit = some (mapOf (state unit) props) := by
  have some_ : units ≠ [] := List.ne_nil_of_mem listed
  obtain ⟨stdout, called, prints⟩ := answers some_
  obtain ⟨sections, each, rfl⟩ := prints.sections known
  simp only [fetchSystemdProps, if_neg some_, called]
  rw [sections_split known properties reports each some_, read_sections known properties reports each,
    ActiveStates.foldl_update fun unit => some (mapOf (state unit) props), if_pos listed]

theorem fetch_other (answers : Answers systemctl state units props) {unit : Str} (other : unit ∉ units) :
    fetchSystemdProps systemctl units props unit = none := by
  by_cases none_ : units = []
  · simp [fetchSystemdProps, none_]
  obtain ⟨stdout, called, prints⟩ := answers none_
  obtain ⟨sections, each, rfl⟩ := prints.sections known
  simp only [fetchSystemdProps, if_neg none_, called]
  rw [sections_split known properties reports each none_, read_sections known properties reports each,
    ActiveStates.foldl_update fun unit => some (mapOf (state unit) props), if_neg other]

end Both

section Single
variable {state : Str → Str → Str} {unit : Str} {units props : List Str} {systemctl : Systemctl}

theorem Reports.less (reports : Reports unit props (state unit)) (f : Str → Bool) :
    Reports unit (props.filter f) (state unit) where
  unit_nonempty := reports.unit_nonempty
  id := reports.id
  unbroken p member := reports.unbroken p (List.mem_of_mem_filter member)
  trimmed p member := reports.trimmed p (List.mem_of_mem_filter member)

theorem read_answers (properties : ∀ p ∈ props, IsProperty p) (reports : Reports unit props (state unit))
    (answers : Answers systemctl state [unit] props) :
    ∃ stdout, systemctl (showArgs [unit] props) = some stdout ∧ readUnit stdout = mapOf (state unit) props := by
  obtain ⟨stdout, called, prints⟩ := answers (List.cons_ne_nil unit [])
  cases prints with
  | last perm => exact ⟨_, called, readUnit_textOf properties reports perm⟩

theorem mapOf_id (known : idName ∈ props) (id : state unit idName = unit) : mapOf (state unit) props =
    Function.update (mapOf (state unit) (props.filter (· ≠ idName))) idName (some unit) := by
  funext p
  by_cases same : p = idName
  · subst same
    simp [mapOf, known, id]
  · simp [mapOf, same]

/-- The `Id` in a map does not show in a status. -/
theorem withProps_congr {parse : Str → Option Rfc3339.DateTime} {m m' : Props} (same : ∀ p, p ≠ idName → m p = m' p)
    (bs : BackupStatus) : bs.withProps parse m = bs.withProps parse m' := by
  have values : ∀ p : String, p.toList ≠ idName → value m p = value m' p := fun p other => by
    rw [value, value, same p.toList other]
  simp only [BackupStatus.withProps, values "ActiveState" (by decide), values "Result" (by decide),
    values "ExecMainStartTimestamp" (by decide), values "ExecMainExitTimestamp" (by decide)]

theorem overviewBackups_eq {backups : List Backup} {parse : Str → Option Rfc3339.DateTime} {scheduler : Schedules}
    (same : ∀ b ∈ backups, ∃ stdout, systemctl (showArgs [b.unit.toList] unitProps) = some stdout ∧
      fetchSystemdProps systemctl (backups.map (·.unit.toList)) (idName :: unitProps) b.unit.toList =
        some (Function.update (readUnit stdout) idName (some b.unit.toList))) :
    overviewBackups systemctl parse scheduler backups = getBackups systemctl parse scheduler backups := by
  unfold overviewBackups getBackups
  refine List.map_congr_left fun b member => ?_
  obtain ⟨stdout, called, fetched⟩ := same b member
  simp only [called, fetched]
  rw [withProps_congr fun p other => Function.update_of_ne other _ _]

end Single

/-! ### The overview and the list of backups -/

theorem batched_eq_single {systemctl : Systemctl} {state : Str → Str → Str} {units props : List Str}
    (known : idName ∈ props)
    (properties : ∀ p ∈ props, IsProperty p) (reports : ∀ unit ∈ units, Reports unit props (state unit))
    (batched : Answers systemctl state units props)
    (single : ∀ unit ∈ units, Answers systemctl state [unit] (props.filter (· ≠ idName))) :
    (∀ unit ∈ units, ∃ stdout, systemctl (showArgs [unit] (props.filter (· ≠ idName))) = some stdout ∧
      fetchSystemdProps systemctl units props unit = some (Function.update (readUnit stdout) idName (some unit))) ∧
    (∀ unit ∉ units, fetchSystemdProps systemctl units props unit = none) ∧
    (∀ (backups : List Backup) (parse : Str → Option Rfc3339.DateTime) (scheduler : Schedules),
      backups.map (·.unit.toList) = units → props = idName :: unitProps →
      overviewBackups systemctl parse scheduler backups = getBackups systemctl parse scheduler backups) := by
  have same : ∀ unit ∈ units, ∃ stdout, systemctl (showArgs [unit] (props.filter (· ≠ idName))) = some stdout ∧
      fetchSystemdProps systemctl units props unit = some (Function.update (readUnit stdout) idName (some unit)) := by
    intro unit listed
    have report := reports unit listed
    have fewer : ∀ p ∈ props.filter (· ≠ idName), IsProperty p :=
      fun p member => properties p (List.mem_of_mem_filter member)
    obtain ⟨stdout, called, read⟩ := read_answers fewer (report.less _) (single unit listed)
    refine ⟨stdout, called, ?_⟩
    rw [fetch_answers known properties reports batched listed, read, mapOf_id known report.id]
  refine ⟨same, fun unit other => fetch_other known properties reports batched other, ?_⟩
  rintro backups parse scheduler rfl rfl
  exact overviewBackups_eq fun b member => same b.unit.toList (List.mem_map_of_mem member)

/-- The text about a unit that never ran, and about one whose result has an equals sign. -/
def sample (unit p : Str) : Str :=
  if p = idName then unit
  else if p = "ActiveState".toList then "inactive".toList
  else if p = "Result".toList ∧ unit = "b.service".toList then "a=b".toList
  else []

def sampleUnits : List Str := ["a.service".toList, "b.service".toList]

/-- The properties in the order of the request. -/
def printed (units props : List Str) : Str := ['\n'].intercalate (units.map fun unit => textOf (sample unit) props)

def sampleSystemctl (args : List Str) : Option Str :=
  if args = showArgs sampleUnits (idName :: unitProps) then some (printed sampleUnits (idName :: unitProps))
  else sampleUnits.findSome? fun unit => if args = showArgs [unit] unitProps then some (printed [unit] unitProps)
    else none

theorem sample_prints : Answers sampleSystemctl sample sampleUnits (idName :: unitProps) ∧
    ∀ unit ∈ sampleUnits, Answers sampleSystemctl sample [unit] unitProps := by
  refine ⟨fun _ => ⟨_, if_pos rfl, .cons (.refl _) (.last (.refl _))⟩, ?_⟩
  have single : ∀ unit ∈ sampleUnits, sampleSystemctl (showArgs [unit] unitProps) =
    some (textOf (sample unit) unitProps) := by
    decide +kernel
  exact fun unit listed _ => ⟨_, single unit listed, .last (.refl _)⟩

theorem batched_eq_single_sample :
    fetchSystemdProps sampleSystemctl sampleUnits (idName :: unitProps) "b.service".toList =
        some (Function.update (readUnit (printed ["b.service".toList] unitProps)) idName (some "b.service".toList)) ∧
      overviewBackups sampleSystemctl (fun _ => none)
      ⟨fun _ => none, fun _ => none⟩ [{ unit := "a.service" }, { unit := "b.service" }] =
        getBackups sampleSystemctl (fun _ => none) ⟨fun _ => none, fun _ => none⟩ [{ unit := "a.service" },
          { unit := "b.service" }] := by
  have rest : (idName :: unitProps).filter (· ≠ idName) = unitProps := by decide
  have words : ∀ p ∈ idName :: unitProps, IsWord p ∧ '=' ∉ p := by decide
  have values : ∀ unit ∈ sampleUnits, unit ≠ [] ∧ sample unit idName = unit ∧
      (∀ p ∈ idName :: unitProps, '\n' ∉ sample unit p) ∧ ∀ p ∈ idName :: unitProps, trimSpace (sample unit p) =
        sample unit p := by
    decide
  have properties : ∀ p ∈ idName :: unitProps, IsProperty p := fun p member => ⟨(words p member).1, (words p member).2⟩
  have reports : ∀ unit ∈ sampleUnits, Reports unit (idName :: unitProps) (sample unit) := fun unit listed =>
    have v := values unit listed
    ⟨v.1, v.2.1, v.2.2.1, v.2.2.2⟩
  have agree := batched_eq_single List.mem_cons_self properties reports sample_prints.1
    (by rw [rest]; exact sample_prints.2)
  rw [rest] at agree
  refine ⟨?_, agree.2.2 _ _ _ rfl rfl⟩
  obtain ⟨stdout, called, fetched⟩ := agree.1 "b.service".toList (by decide)
  have same : sampleSystemctl (showArgs ["b.service".toList] unitProps) =
    some (printed ["b.service".toList] unitProps) := by
    decide +kernel
  rw [fetched, Option.some.inj (called.symm.trans same)]

end HomelabDaemon.SystemdProps
