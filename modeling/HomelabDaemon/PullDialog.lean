import HomelabDaemon.Concurrency.Trace
import Mathlib.Tactic.Common

/-!
# The pull dialog

The services page and the dialog that streams the pull of one unit, from the opening of the dialog on. React runs the
dialog's effect again, after its cleanup, when a dependency is another one than at the render before. A render of the
page is an event of its own, whatever state of the page or of its hooks has changed.
-/

namespace HomelabDaemon.PullDialog
open Concurrency

structure Pull where
  isOpen : Bool
  unit : String
  name : String
  image : String
  autoRestart : Bool

/-- The dependencies of the effect. Each render of the page makes an `onRestart` of its own. -/
structure Deps where
  isOpen : Bool
  unit : String
  name : String
  autoRestart : Bool
  onRestart : Nat
  deriving DecidableEq

/-- A stream with what its listeners have captured. The browser connects it again when the connection is lost. -/
structure EventSource where
  id : Nat
  deps : Deps
  closed : Bool := false

def EventSource.close (source : EventSource) : EventSource := { source with closed := true }

inductive Status where
  | idle | running | done | error
  deriving DecidableEq

inductive Happening where
  | connects (source : Nat)
  | done (source : Nat)
  | restarts (source : Nat) (unit : String)
  deriving DecidableEq

structure Page where
  pull : Pull
  /-- How many callbacks `onRestart` there have been. -/
  callbacks : Nat
  loadingAction : Option String
  /-- Of the effect's last run. -/
  deps : Option Deps
  source : Option EventSource := none
  sources : Nat := 0
  lines : List String := []
  status : Status := .idle
  toasts : List String := []
  /-- The newest first. -/
  log : List Happening := []

inductive Event where
  | render
  | log (data : String)
  | done
  | pullError (data : String)
  | reconnect
  /-- A restart that was asked for has been answered. -/
  | actionEnds
  | close

namespace Page

def currentDeps (p : Page) : Deps where
  isOpen := p.pull.isOpen
  unit := p.pull.unit
  name := p.pull.name
  autoRestart := p.pull.autoRestart
  onRestart := p.callbacks

def cleanup (p : Page) : Page := { p with source := p.source.map EventSource.close }

def connect (p : Page) (source : EventSource) : Page :=
  { p with source := some source, log := .connects source.id :: p.log }

def effect (p : Page) (deps : Deps) : Page :=
  let p := { p with deps := some deps }
  if !deps.isOpen then p
  else { p with lines := [], status := .running, sources := p.sources + 1 }.connect { id := p.sources, deps }

def render (page : Page) : Page :=
  let p := { page with callbacks := page.callbacks + 1 }
  if p.deps = some p.currentDeps then p else p.cleanup.effect p.currentDeps

/-! ### The listeners -/

def addLine (p : Page) (data : String) : Page :=
  { p with lines := p.lines.drop (p.lines.length - 200) ++ [data] }

/-- `doAction(unit, "restart")`, up to its request. -/
def restart (p : Page) (source : EventSource) : Page :=
  { p with
    loadingAction := some (source.deps.unit ++ ":restart")
    log := .restarts source.id source.deps.unit :: p.log }

def done (p : Page) (source : EventSource) : Page :=
  let p := { p with
    status := .done
    source := some source.close
    toasts := ("Pull complete: " ++ source.deps.name) :: p.toasts
    log := .done source.id :: p.log }
  if source.deps.autoRestart then p.restart source else p

def pullError (p : Page) (source : EventSource) (data : String) : Page :=
  { p with status := .error, source := some source.close, toasts := ("Pull failed: " ++ data) :: p.toasts }

/-- The stream, unless it is closed. -/
def stream (p : Page) : Option EventSource := p.source.filter fun source => !source.closed

def step (p : Page) : Event → Option Page
  | .render => some p.render
  | .log data => p.stream.map fun _ => p.addLine data
  | .done => p.stream.map p.done
  | .pullError data => p.stream.map fun source => p.pullError source data
  | .reconnect => p.stream.map p.connect
  | .actionEnds => some { p with loadingAction := none }
  | .close => if p.pull.isOpen then some { p with pull := { p.pull with isOpen := false } }.render else none

end Page

/-- The page before the dialog opens, with what was pulled before. -/
def closed (before : Pull) (callbacks : Nat) (loadingAction : Option String) : Page where
  pull := { before with isOpen := false }
  callbacks := callbacks
  loadingAction := loadingAction
  deps := some {
    isOpen := false, unit := before.unit, name := before.name, autoRestart := before.autoRestart, onRestart := callbacks }

def opened (page : Page) (unit name image : String) (autoRestart : Bool) : Page :=
  { page with pull := { isOpen := true, unit, name, image, autoRestart } }.render

def Happening.isConnects : Happening → Bool
  | .connects _ => true
  | _ => false

def Happening.isRestarts : Happening → Bool
  | .restarts _ _ => true
  | _ => false

/-- One connection, and at most one restart, of the pulled unit and after the end of its pull. -/
structure Once (p : Page) : Prop where
  connections : p.log.countP Happening.isConnects ≤ 1
  restarts : p.log.countP Happening.isRestarts ≤ 1
  afterDone : ∀ source unit later earlier, p.log = later ++ .restarts source unit :: earlier → .done source ∈ earlier
  wanted : ∀ source unit, .restarts source unit ∈ p.log → p.pull.autoRestart = true ∧ unit = p.pull.unit

/-- The page of an open dialog is not rendered again, and no lost connection made anew. -/
def Steady (p : Page) : Event → Prop
  | .render => p.pull.isOpen = false
  | .reconnect => False
  | _ => True

/-- What has happened since the dialog was opened. -/
inductive Told (pull : Pull) (source : Nat) : List Happening → Prop where
  | connected : Told pull source [.connects source]
  | done : Told pull source [.done source, .connects source]
  | restarted (wanted : pull.autoRestart = true) : Told pull source [.restarts source pull.unit, .done source,
      .connects source]

inductive Phase (p : Page) : Prop where
  | streaming (source : EventSource) (current : p.source = some source) (unit : source.deps.unit = p.pull.unit)
      (autoRestart : source.deps.autoRestart = p.pull.autoRestart) (log : p.log = [.connects source.id])
  | ended (silent : p.stream = none) (source : Nat) (told : Told p.pull source p.log)

structure Sound (p : Page) : Prop where
  phase : Phase p
  older : ∀ deps, p.deps = some deps → deps.onRestart ≤ p.callbacks

variable {p p' : Page} {source : EventSource}

theorem Told.connections {pull : Pull} {k : Nat} {log : List Happening} (told : Told pull k log) :
    log.countP Happening.isConnects = 1 := by
  cases told <;> rfl

theorem Told.once {k : Nat} (told : Told p.pull k p.log) : Once p := by
  generalize same : p.log = log at told
  cases told with
  | connected | done =>
    have none : ∀ source unit, .restarts source unit ∉ p.log := by simp [same]
    refine ⟨by rw [same]; exact Nat.le_refl 1, by rw [same]; exact Nat.zero_le 1, fun source unit later earlier split =>
      ?_,
      fun source unit member => absurd member (none source unit)⟩
    exact absurd (by rw [split]; simp) (none source unit)
  | restarted wanted =>
    refine ⟨by rw [same]; exact Nat.le_refl 1, by rw [same]; exact Nat.le_refl 1, fun source unit later earlier split =>
      ?_,
      fun source unit member => ?_⟩
    · rw [same] at split
      cases later with
      | nil =>
        obtain ⟨head, rfl⟩ := List.cons.inj split
        cases head
        exact List.mem_cons_self
      | cons _ later =>
        have late : Happening.restarts source unit ∈ [Happening.done k, .connects k] := by
          rw [(List.cons.inj split).2]
          simp
        simp at late
    · have member : source = k ∧ unit = p.pull.unit := by simpa [same] using member
      exact ⟨wanted, member.2⟩

theorem Phase.once (phase : Phase p) : Once p := by
  cases phase with
  | streaming source _ _ _ log => exact Told.once (k := source.id) (log ▸ .connected)
  | ended _ k told => exact told.once

theorem Phase.streams (phase : Phase p) (current : p.stream = some source) :
    source.deps.unit = p.pull.unit ∧ source.deps.autoRestart = p.pull.autoRestart ∧ p.log = [.connects source.id] := by
  cases phase with
  | streaming source' there unit autoRestart log =>
    rw [Page.stream, there, Option.filter_eq_some_iff] at current
    obtain rfl := Option.some.inj current.1
    exact ⟨unit, autoRestart, log⟩
  | ended silent =>
    rw [silent] at current
    cases current

theorem Phase.connected (phase : Phase p) : ∃ k, Told p.pull k p.log := by
  cases phase with
  | streaming source _ _ _ log => exact ⟨source.id, log ▸ .connected⟩
  | ended _ k told => exact ⟨k, told⟩

/-! ### Renders -/

theorem render_deps (older : ∀ deps, p.deps = some deps → deps.onRestart ≤ p.callbacks) :
    p.render = ({ p with callbacks := p.callbacks + 1 } : Page).cleanup.effect
    { p.currentDeps with onRestart := p.callbacks + 1 } := by
  refine if_neg fun same => ?_
  have late := older _ same
  exact absurd late (Nat.not_succ_le_self p.callbacks)

theorem cleanup_silent (source : Option EventSource) :
    (source.map EventSource.close).filter (fun source => !source.closed) = none := by
  cases source <;> rfl

theorem Told.shut {pull : Pull} {k : Nat} {log : List Happening} (told : Told pull k log) :
    Told { pull with isOpen := false } k log := by
  cases told with
  | connected => exact .connected
  | done => exact .done
  | restarted wanted => exact .restarted wanted

theorem render_shut (shut : p.pull.isOpen = false) {k : Nat} (told : Told p.pull k p.log)
    (older : ∀ deps, p.deps = some deps → deps.onRestart ≤ p.callbacks) : Sound p.render := by
  rw [render_deps older, Page.effect, Page.currentDeps, shut]
  refine ⟨.ended (cleanup_silent p.source) k told, fun deps same => ?_⟩
  obtain rfl := Option.some.inj same
  exact Nat.le_refl _

theorem render_open (isOpen : p.pull.isOpen = true)
    (older : ∀ deps, p.deps = some deps → deps.onRestart ≤ p.callbacks) :
    ∃ source, p.render.log = .connects source :: p.log := by
  rw [render_deps older, Page.effect, Page.currentDeps, isOpen]
  exact ⟨_, rfl⟩

theorem Sound.done (sound : Sound p) (current : p.stream = some source) : Sound (p.done source) := by
  obtain ⟨unit, autoRestart, log⟩ := sound.phase.streams current
  unfold Page.done
  split
  · rename_i wanted
    refine ⟨.ended rfl source.id ?_, sound.older⟩
    rw [autoRestart] at wanted
    have told : Told p.pull source.id [.restarts source.id p.pull.unit, .done source.id, .connects source.id] :=
      .restarted wanted
    rw [← unit, ← log] at told
    exact told
  · refine ⟨.ended rfl source.id ?_, sound.older⟩
    have told : Told p.pull source.id [.done source.id, .connects source.id] := .done
    rw [← log] at told
    exact told

theorem Sound.pullError (sound : Sound p) (data : String) : Sound (p.pullError source data) := by
  obtain ⟨k, told⟩ := sound.phase.connected
  exact ⟨.ended rfl k told, sound.older⟩

theorem Sound.elsewhere (sound : Sound p) (lines : List String) (loadingAction : Option String) :
    Sound { p with lines, loadingAction } := by
  refine ⟨?_, sound.older⟩
  cases sound.phase with
  | streaming source current unit autoRestart log => exact .streaming source current unit autoRestart log
  | ended silent k told => exact .ended silent k told

theorem step_sound {e : Event} (sound : Sound p) (stepped : p.step e = some p') (steady : Steady p e) : Sound p' := by
  obtain ⟨k, told⟩ := sound.phase.connected
  cases e with
  | render =>
    cases stepped
    exact render_shut steady told sound.older
  | log data =>
    obtain ⟨_, _, rfl⟩ := Option.map_eq_some_iff.mp stepped
    exact sound.elsewhere _ p.loadingAction
  | done =>
    obtain ⟨source, current, rfl⟩ := Option.map_eq_some_iff.mp stepped
    exact sound.done current
  | pullError data =>
    obtain ⟨source, current, rfl⟩ := Option.map_eq_some_iff.mp stepped
    exact sound.pullError data
  | reconnect => exact steady.elim
  | actionEnds =>
    cases stepped
    exact sound.elsewhere p.lines none
  | close =>
    simp only [Page.step] at stepped
    split at stepped <;> cases stepped
    exact render_shut rfl told.shut sound.older

theorem step_steady {e : Event} (sound : Sound p) (stepped : p.step e = some p') (once : Once p') : Steady p e := by
  obtain ⟨k, told⟩ := sound.phase.connected
  have again : ∀ source, p'.log ≠ .connects source :: p.log := by
    intro source log
    have connections := once.connections
    rw [log, List.countP_cons, told.connections] at connections
    exact absurd connections (Nat.not_succ_le_self 1)
  cases e with
  | render =>
    cases stepped
    by_contra isOpen
    obtain ⟨source, log⟩ := render_open ((Bool.not_eq_false _).mp isOpen) sound.older
    exact again source log
  | reconnect =>
    obtain ⟨source, _, rfl⟩ := Option.map_eq_some_iff.mp stepped
    exact again source.id rfl
  | _ => trivial

theorem opened_sound (before : Pull) (callbacks : Nat) (loadingAction : Option String) (unit name image : String)
    (autoRestart : Bool) : Sound (opened (closed before callbacks loadingAction) unit name image autoRestart) := by
  have older : ∀ deps, (closed before callbacks loadingAction).deps = some deps → deps.onRestart ≤ callbacks := by
    intro deps same
    obtain rfl := Option.some.inj same
    exact Nat.le_refl _
  rw [opened, render_deps (p :=
    { closed before callbacks loadingAction with pull := { isOpen := true, unit, name, image, autoRestart } }) older]
  refine ⟨.streaming _ rfl rfl rfl rfl, fun deps same => ?_⟩
  obtain rfl := Option.some.inj same
  exact Nat.le_refl _

/-- A dialog pulls once and restarts at most once exactly when, while it is open, its page is not rendered again and no
lost connection is made anew. -/
theorem pulls_once_iff (before : Pull) (callbacks : Nat) (loadingAction : Option String) (unit name image : String)
    (autoRestart : Bool) (events : List Event) :
    Trace.Always Page.step Once (opened (closed before callbacks loadingAction) unit name image autoRestart) events ↔
      Trace.Each Page.step Steady (opened
      (closed before callbacks loadingAction) unit name image autoRestart) events := by
  refine Trace.always_iff_each (fun _ sound => sound.phase.once) (fun _ _ _ => step_sound) (fun _ _ _ => step_steady)
    (opened_sound before callbacks loadingAction unit name image autoRestart) events

namespace Demo

/-- A page that has pulled nothing before, with the dialog opened for a unit. -/
def page : Page :=
  opened (closed { isOpen := false, unit := "", name := "", image := "", autoRestart := false } 3 none)
    "podman-jellyfin.service" "jellyfin" "docker.io/jellyfin/jellyfin:latest" true

/-- The pull ends, and the restart shows on the page; with the second pull it starts over. -/
def feedback : List Event := [.log "Trying to pull", .done, .render, .done]

end Demo

theorem dialog_restarts_again : ¬ Trace.Always Page.step Once Demo.page Demo.feedback := by
  intro always
  have twice : (Trace.run Page.step Demo.page Demo.feedback).map (fun p => p.log.countP Happening.isRestarts) =
    some 2 := rfl
  obtain ⟨p, ran, restarts⟩ := Option.map_eq_some_iff.mp twice
  have once := Trace.always_iff.mp always Demo.feedback p List.prefix_rfl ran
  exact absurd once.restarts (by rw [restarts]; decide)

end HomelabDaemon.PullDialog
