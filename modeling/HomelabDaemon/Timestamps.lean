import Mathlib.Data.List.Basic
import Mathlib.Logic.Function.Basic

/-!
# Rotation times

Each rotation reads the map of all times, sets its own and writes the map back. Nothing keeps
another rotation from writing in between, and a file with a null is read as a map that cannot be
written to.
-/

namespace HomelabDaemon.Timestamps

abbrev Stamps := String → Option String

/-- The file: none, the JSON null, or an object. -/
inductive Content where
  | absent
  | null
  | entries (ts : Stamps)

def Content.stamp (file : Content) : Stamps :=
  match file with
  | .entries ts => ts
  | _ => fun _ => none

/-- `None` is the nil map. -/
def loadTimestamps : Content → Option Stamps
  | .absent => some fun _ => none
  | .null => none
  | .entries ts => some ts

/-- How far a `PUT` has come. -/
inductive Phase where
  | rotating
  | failed
  | loaded (ts : Option Stamps)
  | done (now : String)
  | panicked

structure Request where
  name : String
  phase : Phase

structure State where
  file : Content
  requests : List Request := []

inductive Event where
  | arrive (name : String)
  /-- sops or git fail. -/
  | fail (i : Nat)
  | read (i : Nat)
  | write (i : Nat) (now : String)

namespace State

def setPhase (s : State) (i : Nat) (name : String) (phase : Phase) : State :=
  { s with requests := s.requests.set i ⟨name, phase⟩ }

/-- `recordTimestamp` is the last two events of a request; assigning to a nil map panics. -/
def step (s : State) : Event → Option State
  | .arrive name => some { s with requests := s.requests ++ [⟨name, .rotating⟩] }
  | .fail i =>
    match s.requests[i]? with
    | some ⟨name, .rotating⟩ => some (s.setPhase i name .failed)
    | _ => none
  | .read i =>
    match s.requests[i]? with
    | some ⟨name, .rotating⟩ => some (s.setPhase i name (.loaded (loadTimestamps s.file)))
    | _ => none
  | .write i now =>
    match s.requests[i]? with
    | some ⟨name, .loaded (some ts)⟩ => some
        { s.setPhase i name (.done now) with file := .entries (Function.update ts name (some now)) }
    | some ⟨name, .loaded none⟩ => some (s.setPhase i name .panicked)
    | _ => none

end State

inductive Run (ok : State → Event → State → Prop) (start : State) : State → Prop where
  | refl : Run ok start start
  | step {s next : State} {e : Event} (before : Run ok start s) (step : s.step e = some next) (met : ok s e next) :
    Run ok start next

def Rotation (s : State) (name now : String) : Prop := Request.mk name (.done now) ∈ s.requests

/-- Every rotated name has the time of a rotation, what stood in the file before still does, and no
request has panicked. -/
structure Kept (before : Stamps) (s : State) : Prop where
  rotated : ∀ name now, Rotation s name now → ∃ now', Rotation s name now' ∧ s.file.stamp name = some now'
  old : ∀ name now, before name = some now → s.file.stamp name = some now ∨ ∃ now', Rotation s name now'
  calm : ∀ name, Request.mk name .panicked ∉ s.requests

/-- A request does not read a null, and when it writes, the map it has read knows every other name
that has been rotated. -/
def Careful (s : State) : Event → Prop
  | .read _ => s.file ≠ .null
  | .write i _ => ∀ name ts, s.requests[i]? = some (Request.mk name (.loaded (some ts))) →
      ∀ other now, other ≠ name → Rotation s other now → ∃ now', Rotation s other now' ∧ ts other = some now'
  | _ => True

/-- A request does not read a null, and when it writes, the file still holds what it has read. -/
def Alone (s : State) : Event → Prop
  | .read _ => s.file ≠ .null
  | .write i _ => ∀ name ts, s.requests[i]? = some (Request.mk name (.loaded (some ts))) → ts = s.file.stamp
  | _ => True

/-! ### One step -/

inductive Effect (s : State) : Event → State → Prop where
  | arrive (name : String) : Effect s (.arrive name) { s with requests := s.requests ++ [⟨name, .rotating⟩] }
  | fail {i : Nat} {name : String} (at_ : s.requests[i]? = some ⟨name, .rotating⟩) : Effect s (.fail i)
      (s.setPhase i name .failed)
  | read {i : Nat} {name : String} (at_ : s.requests[i]? = some ⟨name, .rotating⟩) :
    Effect s (.read i) (s.setPhase i name (.loaded (loadTimestamps s.file)))
  | write {i : Nat} {name : String} {ts : Stamps} (now : String)
      (at_ : s.requests[i]? = some ⟨name, .loaded (some ts)⟩) :
    Effect s (.write i now) { s.setPhase i name (.done now) with file := .entries (Function.update ts name (some now)) }
  | panic {i : Nat} {name : String} (now : String) (at_ : s.requests[i]? = some ⟨name, .loaded none⟩) :
    Effect s (.write i now) (s.setPhase i name .panicked)

theorem step_effect {s next : State} {e : Event} (step : s.step e = some next) : Effect s e next := by
  cases e with
  | arrive name =>
    cases step
    exact .arrive name
  | fail i =>
    simp only [State.step] at step
    split at step <;> cases step
    exact .fail ‹_›
  | read i =>
    simp only [State.step] at step
    split at step <;> cases step
    exact .read ‹_›
  | write i now =>
    simp only [State.step] at step
    split at step <;> cases step
    · exact .write now ‹_›
    · exact .panic now ‹_›

section Steps
variable {before : Stamps} {s next : State} {e : Event} {i : Nat} {name : String} {r old : Request} {phase : Phase}

theorem mem_setPhase (at_ : s.requests[i]? = some old) (other : r ≠ old) :
    r ∈ (s.setPhase i name phase).requests ↔ r ∈ s.requests ∨ r = ⟨name, phase⟩ := by
  constructor
  · exact List.mem_or_eq_of_mem_set
  · obtain ⟨inside, _⟩ := List.getElem?_eq_some_iff.mp at_
    rintro (member | rfl)
    · obtain ⟨j, found⟩ := List.mem_iff_getElem?.mp member
      have apart : i ≠ j := by
        rintro rfl
        exact other (Option.some.inj (found.symm.trans at_))
      refine List.mem_iff_getElem?.mpr ⟨j, ?_⟩
      rw [State.setPhase, List.getElem?_set_ne apart, found]
    · exact List.mem_set inside _

theorem rotation_setPhase (at_ : s.requests[i]? = some old) (open_ : ∀ now, old.phase ≠ .done now) {n now : String} :
    Rotation (s.setPhase i name phase) n now ↔ Rotation s n now ∨ n = name ∧ phase = .done now := by
  unfold Rotation
  rw [mem_setPhase at_ (by rintro rfl; exact open_ now rfl), Request.mk.injEq, eq_comm (a := phase)]

/-- No request has the nil map in its hands. -/
structure Sound (before : Stamps) (s : State) : Prop extends Kept before s where
  writable : ∀ name, Request.mk name (.loaded none) ∉ s.requests

/-- What has been read has what stood in the file before, or the name has been rotated. -/
def Informed (before : Stamps) (s : State) : Prop :=
  ∀ name ts, Request.mk name (.loaded (some ts)) ∈ s.requests →
    ∀ n now, before n = some now → ts n = some now ∨ ∃ now', Rotation s n now'

theorem sound_quiet (file : next.file = s.file) (rotations : ∀ n now, Rotation next n now ↔ Rotation s n now)
    (panics : ∀ n, Request.mk n .panicked ∈ next.requests → Request.mk n .panicked ∈ s.requests)
    (loads : ∀ n, Request.mk n (.loaded none) ∈ next.requests → Request.mk n (.loaded none) ∈ s.requests)
    (sound : Sound before s) : Sound before next where
  rotated n now done := by
    obtain ⟨now', at_, stamp⟩ := sound.rotated n now ((rotations n now).mp done)
    exact ⟨now', (rotations n now').mpr at_, file ▸ stamp⟩
  old n now had := by
    rcases sound.old n now had with stays | ⟨now', done⟩
    · exact .inl (file ▸ stays)
    · exact .inr ⟨now', (rotations n now').mpr done⟩
  calm n member := sound.calm n (panics n member)
  writable n member := sound.writable n (loads n member)

theorem loadTimestamps_none {file : Content} : loadTimestamps file = none ↔ file = .null := by
  cases file <;> simp [loadTimestamps]

theorem loadTimestamps_some {file : Content} {ts : Stamps} (loaded : loadTimestamps file = some ts) :
    ts = file.stamp := by
  cases file with
  | null => cases loaded
  | absent | entries _ => exact (Option.some.inj loaded).symm

/-- A write keeps what it should keep where the writer knows all other rotations. -/
theorem sound_write {ts : Stamps} {now : String} (informed : Informed before s) (sound : Sound before s)
    (at_ : s.requests[i]? = some ⟨name, .loaded (some ts)⟩) :
    Sound before { s.setPhase i name (.done now) with file := .entries (Function.update ts name (some now)) } ↔
      ∀ other t, other ≠ name → Rotation s other t → ∃ t', Rotation s other t' ∧ ts other = some t' := by
  have rotations : ∀ n t, Rotation
      { s.setPhase i name (.done now) with file := .entries (Function.update ts name (some now)) } n t ↔
      Rotation s n t ∨ n = name ∧ t = now := by
    intro n t
    have at_set : Rotation (s.setPhase i name (.done now)) n t ↔ Rotation s n t ∨ n = name ∧ Phase.done now = .done t :=
      rotation_setPhase at_ (by simp)
    rw [Phase.done.injEq, eq_comm (a := now)] at at_set
    exact at_set
  constructor
  · intro after other t apart done
    obtain ⟨t', at_, stamp⟩ := after.rotated other t ((rotations other t).mpr (.inl done))
    refine ⟨t', ?_, by simpa [Content.stamp, Function.update_of_ne apart] using stamp⟩
    exact ((rotations other t').mp at_).resolve_right fun own => apart own.1
  · intro knows
    have member := List.mem_of_getElem? at_
    refine { toKept := ⟨?rotated, ?old, ?calm⟩, writable := ?writable }
    case rotated =>
      intro n t done
      by_cases own : n = name
      · subst own
        exact ⟨now, (rotations n now).mpr (.inr ⟨rfl, rfl⟩), by simp [Content.stamp]⟩
      · obtain ⟨t', at_, knows⟩ := knows n t own (((rotations n t).mp done).resolve_right fun same => own same.1)
        exact ⟨t', (rotations n t').mpr (.inl at_), by simpa [Content.stamp, Function.update_of_ne own] using knows⟩
    case old =>
      intro n t had
      by_cases own : n = name
      · exact .inr ⟨now, (rotations n now).mpr (.inr ⟨own, rfl⟩)⟩
      · rcases informed name ts member n t had with stays | ⟨t', done⟩
        · exact .inl (by simpa [Content.stamp, Function.update_of_ne own] using stays)
        · exact .inr ⟨t', (rotations n t').mpr (.inl done)⟩
    case calm =>
      intro n panicked
      rcases (mem_setPhase at_ (by simp)).mp panicked with had | new
      · exact sound.calm n had
      · cases new
    case writable =>
      intro n held
      rcases (mem_setPhase at_ (by simp)).mp held with had | new
      · exact sound.writable n had
      · cases new

theorem sound_step (informed : Informed before s) (sound : Sound before s) (effect : Effect s e next) :
    Sound before next ↔ Careful s e := by
  cases effect with
  | arrive name =>
    refine iff_of_true (sound_quiet (s := s) rfl (fun n now => ?_) (fun n member => ?_)
      (fun n member => ?_) sound) trivial
    · simp [Rotation]
    · simpa using member
    · simpa using member
  | fail at_ =>
    refine iff_of_true (sound_quiet (s := s) rfl (fun n now => ?_) (fun n member => ?_)
      (fun n member => ?_) sound) trivial
    · rw [rotation_setPhase at_ (by simp)]
      simp
    · exact ((mem_setPhase at_ (by simp)).mp member).resolve_right (by simp)
    · exact ((mem_setPhase at_ (by simp)).mp member).resolve_right (by simp)
  | @read i name at_ =>
    constructor
    · intro after null
      refine after.writable name ((mem_setPhase at_ (by simp)).mpr (.inr ?_))
      rw [loadTimestamps_none.mpr null]
    · intro filled
      refine sound_quiet (s := s) rfl (fun n now => ?_) (fun n member => ?_) (fun n member => ?_) sound
      · rw [rotation_setPhase at_ (by simp)]
        simp
      · exact ((mem_setPhase at_ (by simp)).mp member).resolve_right (by simp)
      · refine ((mem_setPhase at_ (by simp)).mp member).resolve_right fun same => filled ?_
        exact loadTimestamps_none.mp (Phase.loaded.inj (Request.mk.inj same).2).symm
  | @write i name ts now at_ =>
    rw [sound_write informed sound at_]
    constructor
    · intro knows name' ts' at_' other t
      obtain ⟨rfl, same⟩ := Request.mk.inj (Option.some.inj (at_.symm.trans at_'))
      obtain rfl := Option.some.inj (Phase.loaded.inj same)
      exact knows other t
    · exact fun careful => careful name ts at_
  | panic now at_ => exact absurd (List.mem_of_getElem? at_) (sound.writable _)

theorem informed_step (informed : Informed before s) (sound : Sound before s) (effect : Effect s e next) :
    Informed before next := by
  have kept : ∀ {n now}, Rotation s n now → Rotation next n now := by
    intro n now done
    cases effect with
    | arrive name => exact List.mem_append_left _ done
    | fail at_ | read at_ | write _ at_ | panic _ at_ => exact (rotation_setPhase at_ (by simp)).mpr (.inl done)
  have earlier : ∀ name ts, Request.mk name (.loaded (some ts)) ∈ next.requests →
      Request.mk name (.loaded (some ts)) ∈ s.requests ∨ loadTimestamps s.file = some ts := by
    intro name ts member
    cases effect with
    | arrive name => exact .inl (by simpa using member)
    | fail at_ | write _ at_ | panic _ at_ =>
      rcases List.mem_or_eq_of_mem_set member with had | new
      · exact .inl had
      · cases new
    | read at_ =>
      rcases List.mem_or_eq_of_mem_set member with had | new
      · exact .inl had
      · exact .inr (Phase.loaded.inj (Request.mk.inj new).2).symm
  intro name ts member n now had
  rcases earlier name ts member with before_ | loaded
  · rcases informed name ts before_ n now had with stays | ⟨now', done⟩
    · exact .inl stays
    · exact .inr ⟨now', kept done⟩
  · rcases sound.old n now had with stays | ⟨now', done⟩
    · exact .inl (loadTimestamps_some loaded ▸ stays)
    · exact .inr ⟨now', kept done⟩

end Steps

/-! ### Runs -/

section Runs
variable {file : Content} {s : State}

theorem sound_start (file : Content) : Sound file.stamp { file := file } where
  rotated _ _ done := nomatch done
  old _ _ had := .inl had
  calm _ panicked := nomatch panicked
  writable _ held := nomatch held

theorem informed_start (file : Content) : Informed file.stamp { file := file } :=
  fun _ _ member => nomatch member

theorem careful_run (run : Run (fun now e _ => Careful now e) { file := file } s) :
    Informed file.stamp s ∧ Sound file.stamp s ∧ Run (fun _ _ next => Sound file.stamp next) { file := file } s := by
  induction run with
  | refl => exact ⟨informed_start file, sound_start file, .refl⟩
  | step before step met ih =>
    have effect := step_effect step
    have sound := (sound_step ih.1 ih.2.1 effect).mpr met
    exact ⟨informed_step ih.1 ih.2.1 effect, sound, .step ih.2.2 step sound⟩

/-- Where no other request writes between the read and the write of one, nothing is lost. -/
theorem alone_careful (run : Run (fun now e _ => Alone now e) { file := file } s) :
    Run (fun now e _ => Careful now e) { file := file } s := by
  induction run with
  | refl => exact .refl
  | @step s next e before step met ih =>
    refine .step ih step ?_
    cases e with
    | arrive name => trivial
    | fail i => trivial
    | read i => exact met
    | write i now =>
      intro name ts at_ other t _ done
      obtain ⟨t', rotated, stamp⟩ := (careful_run ih).2.1.rotated other t done
      exact ⟨t', rotated, met name ts at_ ▸ stamp⟩

theorem sound_run (run : Run (fun _ _ next => Sound file.stamp next) { file := file } s) :
    Informed file.stamp s ∧ Sound file.stamp s ∧ Run (fun now e _ => Careful now e) { file := file } s := by
  induction run with
  | refl => exact ⟨informed_start file, sound_start file, .refl⟩
  | step before step sound ih =>
    have effect := step_effect step
    exact ⟨informed_step ih.1 ih.2.1 effect, sound, .step ih.2.2 step ((sound_step ih.1 ih.2.1 effect).mp sound)⟩

/-- The runs whose steps are all careful are those that never lose a time, and never come to hold
the nil map. -/
theorem stamps_kept : (Run (fun now e _ => Careful now e) { file := file } s → Kept file.stamp s) ∧
    (Run (fun now e _ => Careful now e) { file := file } s ↔
      Run (fun _ _ next => Sound file.stamp next) { file := file } s) :=
  ⟨fun run => (careful_run run).2.1.toKept, fun run => (careful_run run).2.2, fun run => (sound_run run).2.2⟩

end Runs

/-- One rotation after the other. -/
theorem stamps_kept_serial : ∃ s, Kept (fun _ => none) s ∧ Rotation s "a/A" "t0" ∧ Rotation s "b/B" "t1" := by
  have loaded : Run (fun now e _ => Careful now e) { file := .absent } _ :=
    .step (.step .refl (e := .arrive "a/A") rfl trivial) (e := .read 0) rfl nofun
  have first := Run.step loaded (e := .write 0 "t0") rfl (by simp [Careful, Rotation, State.setPhase])
  have again := Run.step (.step first (e := .arrive "b/B") rfl trivial) (e := .read 1) rfl nofun
  have second := Run.step again (e := .write 1 "t1") rfl (by
    intro name ts at_ other now _ done
    obtain ⟨rfl, same⟩ := Request.mk.inj (Option.some.inj at_)
    obtain rfl := Option.some.inj (Phase.loaded.inj same)
    obtain ⟨rfl, rfl⟩ : other = "a/A" ∧ now = "t0" := by simpa [Rotation, State.setPhase] using done
    exact ⟨"t0", done, by simp⟩)
  exact ⟨_, stamps_kept.1 second, by simp [Rotation, State.setPhase], by simp [Rotation, State.setPhase]⟩

/-- Two rotations that read the map before either writes it. -/
theorem stamps_overwritten : ¬ ∀ (file : Content) (s : State), Run (fun _ _ _ => True) { file := file } s →
    (∀ r ∈ s.requests, ∃ now, r.phase = .done now) → Kept file.stamp s := by
  intro claim
  have arrived : Run (fun _ _ _ => True) { file := .absent } _ :=
    .step (.step .refl (e := .arrive "a/A") rfl trivial) (e := .arrive "b/B") rfl trivial
  have loaded := Run.step (.step arrived (e := .read 0) rfl trivial) (e := .read 1) rfl trivial
  have written := Run.step (.step loaded (e := .write 0 "t0") rfl trivial) (e := .write 1 "t1") rfl trivial
  have kept := claim _ _ written (by simp [State.setPhase])
  obtain ⟨now, _, stamp⟩ := kept.rotated "a/A" "t0" (by simp [Rotation, State.setPhase])
  simp [Content.stamp] at stamp

theorem stamps_null : ∃ s, Run (fun _ _ _ => True) { file := .null } s ∧ Request.mk "a/A" .panicked ∈ s.requests := by
  have loaded : Run (fun _ _ _ => True) { file := .null } _ :=
    .step (.step .refl (e := .arrive "a/A") rfl trivial) (e := .read 0) rfl trivial
  exact ⟨_, .step loaded (e := .write 0 "t0") rfl trivial, List.mem_cons_self⟩

end HomelabDaemon.Timestamps
