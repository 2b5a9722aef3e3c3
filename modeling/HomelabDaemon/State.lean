import HomelabDaemon.Config
import HomelabDaemon.Json.RoundTrip
import HomelabDaemon.Rfc3339
import Mathlib.Data.Finmap
import Mathlib.Data.Finset.Sort
import Mathlib.Data.String.Basic

/-!
# The state file

What the daemon remembers over restarts: the units that were stopped through it, the boot id of the
kernel it last started under, and when each backup last ran. Unit names are UTF-8.
-/

namespace HomelabDaemon
open Rfc3339 Json

section Maps
variable {V W : Type}

/-- What `f` makes of the values, where it makes anything. -/
def mapMaybe (f : V → Option W) (m : Finmap fun _ : String => V) : Finmap fun _ : String => W :=
  (m.keys.sort (· ≤ ·)).foldl (fun made unit =>
    match (m.lookup unit).bind f with
    | some w => made.insert unit w
    | none => made) ∅

/-- The order in which a map is written. -/
def sortedKeys (m : Finmap fun _ : String => V) : List String := m.keys.sort (· ≤ ·)

theorem lookup_foldl (g : String → Option W) (units : List String) (m : Finmap fun _ : String => W) (unit : String) :
    (units.foldl (fun made unit => match g unit with | some w => made.insert unit w | none => made) m).lookup unit =
      (if unit ∈ units then g unit else none).or (m.lookup unit) := by
  induction units generalizing m with
  | nil => simp
  | cons u units ih =>
    rw [List.foldl_cons, ih]
    by_cases same : unit = u
    · subst same
      cases found : g unit with
      | none => simp
      | some w => by_cases later : unit ∈ units <;> simp [later]
    · cases found : g u with
      | none => simp [same]
      | some w => simp [same, Finmap.lookup_insert_of_ne]

theorem lookup_mapMaybe (f : V → Option W) (m : Finmap fun _ : String => V) (unit : String) :
    (mapMaybe f m).lookup unit = (m.lookup unit).bind f := by
  rw [mapMaybe, lookup_foldl, Finmap.lookup_empty, Option.or_none]
  by_cases known : unit ∈ m.keys
  · simp [known]
  · simp [known, Finmap.lookup_eq_none.mpr (fun there => known (Finmap.mem_keys.mpr there))]

end Maps

structure State where
  userStopped : Finset String := ∅
  /-- Of the last start, and empty before it. -/
  bootID : String := ""
  backupLastRun : Finmap fun _ : String => DateTime := ∅

def formatTime (t : DateTime) : String := String.ofList (Rfc3339.format t)

def parseTime (s : String) : Option DateTime := Rfc3339.parse s.toList

theorem parseTime_formatTime {t : DateTime} (representable : t.Representable) :
    parseTime (formatTime t) = some t.truncate := by
  rw [parseTime, formatTime, String.toList_ofList, parse_format representable]

structure StateFile where
  userStopped : List String := []
  bootID : String := ""
  backupLastRun : Finmap fun _ : String => String := ∅

abbrev Disk := Option (List UInt8)

namespace StateFile

def toJson (sf : StateFile) : Value :=
  .object (
    ("user_stopped", if sf.userStopped = [] then .null else .array (sf.userStopped.map .string)) ::
    (if sf.bootID = "" then [] else [("boot_id", .string sf.bootID)]) ++
    (if sf.backupLastRun = ∅ then []
      else [("backup_last_run", .object <| (sf.backupLastRun.keys.sort (· ≤ ·)).map fun unit =>
        (unit, .string ((sf.backupLastRun.lookup unit).getD "")))]))

/-- Names of fields are compared with letters that fold to one another as equal. -/
def foldRune (c : Char) : Char := if c = '\u017F' then 'S' else if c = '\u212A' then 'K' else c.toUpper

def foldName (s : String) : List Char := s.toList.map foldRune

def readString : Value → Option String
  | .null => some ""
  | .string s => some s
  | _ => none

def readEntry (m : Finmap fun _ : String => String) : String × Value → Option (Finmap fun _ : String => String)
  | (unit, time) => (readString time).map fun time => m.insert unit time

def readUserStopped (sf : StateFile) : Value → Option StateFile
  | .null => some { sf with userStopped := [] }
  | .array items => (items.mapM readString).map fun units => { sf with userStopped := units }
  | _ => none

def readBootID (sf : StateFile) : Value → Option StateFile
  | .null => some sf
  | .string s => some { sf with bootID := s }
  | _ => none

def readBackupLastRun (sf : StateFile) : Value → Option StateFile
  | .null => some { sf with backupLastRun := ∅ }
  | .object members => (members.foldlM readEntry sf.backupLastRun).map fun m => { sf with backupLastRun := m }
  | _ => none

/-- A member of another name is skipped. -/
def readMember (sf : StateFile) (member : String × Value) : Option StateFile :=
  if foldName member.1 = foldName "user_stopped" then sf.readUserStopped member.2
  else if foldName member.1 = foldName "boot_id" then sf.readBootID member.2
  else if foldName member.1 = foldName "backup_last_run" then sf.readBackupLastRun member.2
  else some sf

def ofJson : Value → Option StateFile
  | .null => some {}
  | .object members => members.foldlM readMember {}
  | _ => none

end StateFile

namespace State

/-- The text depends on the order in which the stopped units are listed. -/
def persist (s : State) (order : List String) : List UInt8 :=
  marshal (StateFile.toJson {
    userStopped := order
    bootID := s.bootID
    backupLastRun := mapMaybe (fun t => some (formatTime t)) s.backupLastRun })

/-- The map is ranged over in any order. -/
def Lists (s : State) (order : List String) : Prop := order.Nodup ∧ order.toFinset = s.userStopped

def load : Disk → State
  | none => {}
  | some data =>
    match (unmarshal data).bind StateFile.ofJson with
    | none => {}
    | some sf => {
        userStopped := sf.userStopped.toFinset
        bootID := sf.bootID
        backupLastRun := mapMaybe parseTime sf.backupLastRun }

end State

def Config.units (cfg : Config) : Finset String := (cfg.services.map (·.unit)).toFinset

/-- Units that are not in the Config are dropped from memory, and stay in the file. -/
def newState (disk : Disk) (cfg : Config) : State :=
  let s := State.load disk
  { s with userStopped := s.userStopped.filter (· ∈ cfg.units) }

namespace State

def setUserStopped (s : State) (unit : String) (stopped : Bool) : State :=
  { s with userStopped := if stopped then insert unit s.userStopped else s.userStopped.erase unit }

def setAllUserStopped (s : State) (units : List String) (stopped : Bool) : State :=
  units.foldl (fun s unit => s.setUserStopped unit stopped) s

def setBackupLastRun (s : State) (unit : String) (t : DateTime) : State :=
  { s with backupLastRun := s.backupLastRun.insert unit t }

/-- `current` is the kernel's boot id, empty if it cannot be read. -/
def isFirstStartAfterBoot (s : State) (current : String) : Bool × State :=
  if current = "" then (true, s) else (decide (s.bootID ≠ current), { s with bootID := current })

end State

inductive Mutation where
  | setUserStopped (unit : String) (stopped : Bool)
  | setAllUserStopped (units : List String) (stopped : Bool)
  | setBackupLastRun (unit : String) (t : DateTime)
  | isFirstStartAfterBoot (current : String)

namespace Mutation

def apply (s : State) : Mutation → State
  | .setUserStopped unit stopped => s.setUserStopped unit stopped
  | .setAllUserStopped units stopped => s.setAllUserStopped units stopped
  | .setBackupLastRun unit t => s.setBackupLastRun unit t
  | .isFirstStartAfterBoot current => (s.isFirstStartAfterBoot current).2

def persists : Mutation → Bool
  | .isFirstStartAfterBoot current => current ≠ ""
  | _ => true

/-- Times are recorded as the clock gives them. -/
def Writable : Mutation → Prop
  | .setBackupLastRun _ t => t.Representable
  | _ => True

end Mutation

/-! ### What is written is loaded -/

namespace StateFile
variable (sf : StateFile)

theorem fits_strings (room : Nat) (units : List String) : FitsItems room (units.map .string) := by
  induction units with
  | nil => exact trivial
  | cons unit units ih => exact ⟨trivial, ih⟩

theorem fits_entries (room : Nat) (units : List String) (text : String → String) :
    FitsMembers room (units.map fun unit => (unit, .string (text unit))) := by
  induction units with
  | nil => exact trivial
  | cons unit units ih => exact ⟨trivial, ih⟩

theorem toJson_fits : Fits maxNestingDepth sf.toJson := by
  have units : Fits 9999 (if sf.userStopped = [] then .null else .array (sf.userStopped.map .string)) := by
    split_ifs
    · exact trivial
    · exact ⟨by decide, fits_strings _ _⟩
  refine ⟨by decide, units, ?_⟩
  split_ifs
  · exact trivial
  · exact ⟨⟨by decide, fits_entries _ _ _⟩, trivial⟩
  · exact ⟨trivial, trivial⟩
  · exact ⟨trivial, ⟨by decide, fits_entries _ _ _⟩, trivial⟩

theorem mapM_strings (units : List String) : (units.map Value.string).mapM readString = some units := by
  induction units with
  | nil => rfl
  | cons unit units ih => simp [readString, ih]

theorem foldlM_entries (text : String → String) (units : List String) (m : Finmap fun _ : String => String) :
    (units.map fun unit => (unit, Value.string (text unit))).foldlM readEntry m =
      some (units.foldl (fun m unit => m.insert unit (text unit)) m) := by
  induction units generalizing m with
  | nil => rfl
  | cons unit units ih => exact ih _

theorem foldl_entries (m : Finmap fun _ : String => String) :
    (m.keys.sort (· ≤ ·)).foldl (fun made unit => made.insert unit ((m.lookup unit).getD "")) ∅ = m := by
  apply Finmap.ext_lookup
  intro unit
  have folded := lookup_foldl (fun unit => some ((m.lookup unit).getD "")) (m.keys.sort (· ≤ ·)) ∅ unit
  refine folded.trans ?_
  rw [Finmap.lookup_empty, Option.or_none]
  by_cases known : unit ∈ m.keys
  · obtain ⟨text, found⟩ := Option.isSome_iff_exists.mp (Finmap.lookup_isSome.mpr (Finmap.mem_keys.mp known))
    simp [known, found]
  · simp [known, Finmap.lookup_eq_none.mpr (fun there => known (Finmap.mem_keys.mpr there))]

theorem ofJson_toJson : ofJson sf.toJson = some sf := by
  obtain ⟨order, boot, runs⟩ := sf
  have boot_apart : foldName "boot_id" ≠ foldName "user_stopped" := by decide
  have runs_apart : foldName "backup_last_run" ≠ foldName "user_stopped" ∧
    foldName "backup_last_run" ≠ foldName "boot_id" := by
    decide
  have units : ∀ sf, readMember sf ("user_stopped", if order = [] then .null else .array (order.map .string)) =
      some { sf with userStopped := order } := by
    intro sf
    rw [readMember, if_pos rfl]
    split_ifs with none
    · rw [none]
      rfl
    · rw [readUserStopped, mapM_strings]
      rfl
  have stamp : ∀ sf, readMember sf ("boot_id", .string boot) = some { sf with bootID := boot } := by
    intro sf
    rw [readMember, if_neg boot_apart, if_pos rfl]
    rfl
  have times : ∀ sf : StateFile, sf.backupLastRun = ∅ → readMember sf ("backup_last_run", .object <|
      (runs.keys.sort (· ≤ ·)).map fun unit => (unit, .string ((runs.lookup unit).getD ""))) =
        some { sf with backupLastRun := runs } := by
    intro sf none
    rw [readMember, if_neg runs_apart.1, if_neg runs_apart.2, if_pos rfl, readBackupLastRun, foldlM_entries, none,
      foldl_entries]
    rfl
  dsimp only [toJson, ofJson]
  rw [List.cons_append, List.foldlM_cons, units, Option.bind_eq_bind, Option.bind_some]
  by_cases unstamped : boot = "" <;> by_cases idle : runs = ∅ <;> simp [unstamped, idle, stamp, times]

end StateFile

namespace State
variable {s : State} {order : List String}

/-- What a file can hold of the state. -/
def truncate (s : State) : State :=
  { s with backupLastRun := mapMaybe (fun t => some t.truncate) s.backupLastRun }

def Representable (s : State) : Prop := ∀ unit t, s.backupLastRun.lookup unit = some t → t.Representable

theorem lookup_truncate (s : State) (unit : String) :
    s.truncate.backupLastRun.lookup unit = (s.backupLastRun.lookup unit).map DateTime.truncate := by
  rw [truncate, lookup_mapMaybe]
  cases s.backupLastRun.lookup unit <;> rfl

theorem load_persist (lists : s.Lists order) (representable : s.Representable) :
    load (some (s.persist order)) = s.truncate := by
  have read : (unmarshal (s.persist order)).bind StateFile.ofJson = some {
      userStopped := order, bootID := s.bootID
      backupLastRun := mapMaybe (fun t => some (formatTime t)) s.backupLastRun } := by
    rw [persist, unmarshal_marshal (StateFile.toJson_fits _), Option.bind_some, StateFile.ofJson_toJson]
  have times : mapMaybe parseTime (mapMaybe (fun t => some (formatTime t)) s.backupLastRun) =
    s.truncate.backupLastRun := by
    apply Finmap.ext_lookup
    intro unit
    rw [lookup_mapMaybe, lookup_mapMaybe, lookup_truncate]
    cases found : s.backupLastRun.lookup unit with
    | none => rfl
    | some t => exact parseTime_formatTime (representable unit t found)
  rw [load, read, truncate]
  dsimp only
  rw [times, lists.2]
  rfl

theorem lists_sort (s : State) : s.Lists (s.userStopped.sort (· ≤ ·)) :=
  ⟨Finset.sort_nodup _ _, Finset.sort_toFinset _ _⟩

theorem load_cut {k : Nat} (short : k < (s.persist order).length) : load (some ((s.persist order).take k)) = {} := by
  rw [load, persist, StateFile.toJson, unmarshal_cut (StateFile.toJson_fits _) short]
  rfl

theorem Representable.truncate (representable : s.Representable) : s.truncate.Representable := by
  intro unit t found
  rw [lookup_truncate] at found
  obtain ⟨t, there, rfl⟩ := Option.map_eq_some_iff.mp found
  exact (representable unit t there).truncate

theorem setAllUserStopped_eq (s : State) (units : List String) (stopped : Bool) :
    s.setAllUserStopped units stopped =
      { s with userStopped := if stopped then s.userStopped ∪ units.toFinset else s.userStopped \ units.toFinset } := by
  unfold setAllUserStopped
  induction units generalizing s with
  | nil => cases stopped <;> simp
  | cons unit units ih =>
    rw [List.foldl_cons, ih]
    congr 1
    ext u
    cases stopped <;> simp [setUserStopped]; tauto

end State

namespace Mutation
variable {s : State} {m : Mutation}

theorem apply_representable (representable : s.Representable) (writable : m.Writable) : (m.apply s).Representable := by
  cases m with
  | setUserStopped => exact representable
  | setAllUserStopped units stopped =>
    rw [apply, State.setAllUserStopped_eq]
    exact representable
  | setBackupLastRun unit t =>
    intro u time found
    by_cases same : u = unit
    · subst same
      cases (Finmap.lookup_insert _).symm.trans found
      exact writable
    · exact representable u time ((Finmap.lookup_insert_of_ne _ same).symm.trans found)
  | isFirstStartAfterBoot current =>
    rw [apply, State.isFirstStartAfterBoot]
    split_ifs <;> exact representable

theorem unpersisted (silent : m.persists = false) : m.apply s = s := by
  cases m with
  | isFirstStartAfterBoot current =>
    have unreadable : current = "" := by simpa [persists] using silent
    rw [apply, State.isFirstStartAfterBoot, if_pos unreadable]
  | _ => cases silent

end Mutation

end HomelabDaemon
