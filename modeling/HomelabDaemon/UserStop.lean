import HomelabDaemon.Concurrency.CheckThenAct
import HomelabDaemon.System

/-!
# User stops

While a unit is user-stopped and its policy respects that, neither boot nor the monitor nor a
restart starts it, provided the stop never came under one of them that had already read the
flag.
-/

namespace HomelabDaemon
open Concurrency Program

namespace UserStop

/-- Every entry of the unit has a policy that respects a user stop. -/
def Sticky (cfg : Config) (unit : String) : Prop :=
  ∀ s ∈ cfg.services, s.unit = unit → s.restart = "unless-stopped" ∨ s.restart = "on-failure"

instance (cfg : Config) (unit : String) : Decidable (Sticky cfg unit) :=
  inferInstanceAs (Decidable (∀ s ∈ cfg.services, _))

def Stopped (unit : String) (w : World) : Prop := unit ∈ w.userStopped ∧ Sticky w.cfg unit

instance (unit : String) (w : World) : Decidable (Stopped unit w) := inferInstanceAs (Decidable (_ ∧ _))

/-- What the flag and the configuration read while the unit is stopped. -/
def Answers (unit : String) : (op : Op) → op.Ans → Prop
  | .isUserStopped u, stopped => u = unit → stopped = true
  | .config, cfg => Sticky cfg unit
  | _, _ => True

/-- A start of the unit, or the spawning of a restart that leads to one. -/
def Starts (unit : String) : Op → Prop
  | .mark (.startUnit u) => u = unit
  | .goRestart svc => svc.unit = unit
  | _ => False

variable {unit : String}

theorem starts_silent (q : Query) : ¬ Starts unit (.ask q) := fun h => h

theorem startUnit_starts {u : String} (h : (startUnit u).Reaches (Answers unit) (Starts unit)) : u = unit := by
  rcases startUnit_reaches h with h | h | h | h | h
  · exact h
  all_goals exact h.elim

theorem bootable_starts {services : List Service} :
    ¬ (bootable services).Reaches (Answers unit) (Starts unit) := by
  intro h
  obtain ⟨enabled, svc, _, h⟩ := reaches_fold h
  split at h
  · exact h
  · rcases (reaches_bind _ _).mp h with h | ⟨_, _, h⟩
    · exact (reaches_perform _).mp h
    · exact h

theorem bootable_without {services enabled : List Service}
    (h : (bootable services).Returns (Answers unit) enabled) : ∀ svc ∈ enabled, svc.unit ≠ unit := by
  refine returns_fold (fun enabled => ∀ svc ∈ enabled, svc.unit ≠ unit) ?_ (by simp) h
  intro enabled svc enabled' _ without returned
  split at returned
  · exact (show enabled = enabled' from returned) ▸ without
  · obtain ⟨stopped, ⟨_, answer, same⟩, returned⟩ := (returns_bind _ _ _).mp returned
    have result : (if stopped then enabled else enabled ++ [svc]) = enabled' := returned
    subst result
    split
    · exact without
    · rename_i clear
      intro s member
      rcases List.mem_append.mp member with old | new
      · exact without s old
      · rw [List.mem_singleton.mp new]
        intro named
        have answered : stopped = true := (show _ = stopped from same) ▸ answer named
        exact clear answered

theorem startup_starts : ¬ startup.Reaches (Answers unit) (Starts unit) := by
  intro h
  rcases startup_reaches starts_silent h with h | h | ⟨cfg, _, h | ⟨enabled, built, svc, member, h⟩⟩
  · refine verifyRunningServices_built.within.not_reaches ?_ h
    intro op member starts
    cases op with
    | mark m => cases m <;> rcases member with member | member <;> contradiction
    | goRestart svc => rcases member with member | member <;> exact member
    | _ => exact starts
  · exact h
  · exact bootable_starts h
  · rcases bootService_reaches starts_silent h with h | h
    · exact bootable_without built svc member (startUnit_starts h)
    · exact h

theorem supervise_starts {activeStates : String → Bool} {cfg : Config} (sticky : Sticky cfg unit)
    {svc : Service} (member : svc ∈ cfg.services) :
    ¬ (supervise activeStates svc).Reaches (Answers unit) (Starts unit) := by
  intro h
  rcases supervise_reaches starts_silent h with h | h | h | h | ⟨_, wanted, named⟩
  iterate 4 exact h
  have policy := sticky svc member named
  unfold shouldRestart at wanted
  split at wanted
  · rename_i always
    rcases policy with policy | policy <;> exact absurd (policy.symm.trans always) (by decide)
  split at wanted
  · obtain ⟨stopped, ⟨_, answer, same⟩, result⟩ := (returns_bind _ _ _).mp wanted
    have flag : stopped = true := (show _ = stopped from same) ▸ answer named
    subst flag
    cases (show (!true) = true from result)
  split at wanted
  · obtain ⟨stopped, ⟨_, answer, same⟩, result⟩ := (returns_bind _ _ _).mp wanted
    have flag : stopped = true := (show _ = stopped from same) ▸ answer named
    subst flag
    cases (show false = true from result)
  · cases (show false = true from wanted)

theorem monitorLoop_starts (n : Nat) (prevFailures : String → Nat) :
    ¬ (monitorLoop n prevFailures).Reaches (Answers unit) (Starts unit) := by
  intro h
  rcases monitorLoop_reaches starts_silent h with h | ⟨_, h⟩ | ⟨cfg, sticky, svc, member, _, h⟩
  · exact h
  · exact h
  · exact supervise_starts sticky member h

theorem restartGoroutine_starts {svc : Service}
    (h : (restartGoroutine svc).Reaches (Answers unit) (Starts unit)) : svc.unit = unit := by
  rcases (reaches_bind _ _).mp h with h | ⟨_, _, h⟩
  · rcases restart_reaches starts_silent h with h | h | h
    · exact startUnit_starts h
    · exact h.elim
    · exact h.elim
  · exact ((reaches_perform _).mp h).elim

/-- The user-stopped flag as a guard of the background goroutines. -/
def guard (unit : String) : CheckThenAct daemon where
  guard := Stopped unit
  watched who := who.background = true
  may := Answers unit
  target := Starts unit
  answers := by
    intro w op ans permitted stopped
    cases op with
    | isUserStopped u =>
      have inside : unit ∈ w.userStopped := stopped.elim (·.1) (·.1)
      intro named
      subst named
      have same := of_decide_eq_true permitted
      rw [same]
      exact decide_eq_true inside
    | config =>
      have sticky : Sticky w.cfg unit := stopped.elim (·.2) (·.2)
      have same := of_decide_eq_true permitted
      subst same
      exact sticky
    | _ => trivial
  hands := by
    intro op who forked watched reaches
    cases op with
    | goRestart svc =>
      obtain rfl := List.mem_singleton.mp forked
      exact restartGoroutine_starts reaches
    | goRunBackup u =>
      obtain rfl := List.mem_singleton.mp forked
      cases watched
    | _ => cases forked
  arrivals := by
    intro who arrives watched
    cases who <;> contradiction
  bystanders := foreground_forks

/-- A background goroutine begins to start the unit. -/
def Begins (unit : String) : Step → Prop
  | .act _ who (.mark (.startUnit u)) _ => who.background = true ∧ u = unit
  | _ => False

theorem fresh_starts {ticks : Nat} : ∀ who ∈ [Actor.boot, .monitor ticks], (guard unit).watched who →
    ¬ (daemon.code who).Reaches (guard unit).may (guard unit).target := by
  intro who member _
  rcases List.mem_cons.mp member with rfl | member
  · exact startup_starts
  · obtain rfl := List.mem_singleton.mp member
    exact monitorLoop_starts ticks _

/-- A user stop is respected in every run in which no step stops the unit while boot, the
monitor or a restart is between its check of the flag and the start. -/
theorem userStop_respected {w : World} {ticks : Nat} {hist : Story} {c c' : Configuration} {e : Step}
    (run : daemon.Run (guard unit).Careful (started w ticks) hist c) (stopped : Stopped unit c.world)
    (next : daemon.Step c e c') : ¬ Begins unit e := by
  intro begins
  cases e with
  | act i who op ans =>
    have safe := (guard unit).run_safe fresh_starts run stopped next
    cases op with
    | mark m =>
      cases m with
      | startUnit u => exact safe begins.1 begins.2
      | _ => exact begins
    | _ => exact begins
  | _ => exact begins

/-! ### Runs -/

def starts (unit : String) (who : Actor) : Op → Bool
  | .mark (.startUnit u) => who.background && u == unit
  | _ => false

theorem starts_true {who : Actor} {op : Op} (h : starts unit who op = true) :
    who.background = true ∧ op = .mark (.startUnit unit) := by
  unfold starts at h
  split at h
  · obtain ⟨watched, same⟩ := Bool.and_eq_true_iff.mp h
    exact ⟨watched, by rw [of_decide_eq_true same]⟩
  · cases h

def service : Service := { unit := "a.service", enabled := true, restart := "unless-stopped", restartDelay := 5 }

def world (userStopped : Finset String) : World :=
  { cfg := { version := 1, services := [service] }, userStopped := userStopped }

/-- A tick goes by while the unit is stopped. -/
theorem userStop_respected_tick : ∃ hist c, hist.length = 9 ∧
    daemon.Run (guard "a.service").Careful (started (world {"a.service"}) 1) hist c ∧
    ∀ e c', daemon.Step c e c' → ¬ Begins "a.service" e := by
  obtain ⟨hist, c, run, shown⟩ := schedule_run (fun _ c _ => decide (Stopped "a.service" c.world))
    (world {"a.service"}) 1 [.arrive (.api (.stop "a.service")), .go 1 {} 6, .go 2 {} 2]
    (fun s => s.1.length == 9 && decide (Stopped "a.service" s.2.world)) (by decide)
  obtain ⟨length, stopped⟩ := Bool.and_eq_true_iff.mp shown
  have careful : daemon.Run (guard "a.service").Careful (started (world {"a.service"}) 1) hist c := by
    refine run.weaken fun _ c _ met clear _ => ?_
    have already : Stopped "a.service" c.world := of_decide_eq_true met
    exact absurd already clear
  exact ⟨hist, c, by simpa using length, careful,
    fun e c' => userStop_respected careful (of_decide_eq_true stopped)⟩

/-- A stop during the restart delay does not keep the restart from starting the unit. -/
theorem userStop_overtaken : ¬ ∀ (unit : String) (w : World) (ticks : Nat) (hist : Story)
    (c c' : Configuration) (e : Step), daemon.Run Machine.anyStep (started w ticks) hist c →
    Stopped unit c.world → daemon.Step c e c' → ¬ Begins unit e := by
  intro claim
  obtain ⟨hist, c, run, shown⟩ := schedule_anyRun (world ∅) 1
    [.go 1 {} 10, .arrive (.api (.stop "a.service")), .go 3 {} 2, .go 2 {} 1]
    (fun s => Machine.about s.2 2 (starts "a.service") && decide (Stopped "a.service" s.2.world)) (by decide)
  obtain ⟨atStart, stopped⟩ := Bool.and_eq_true_iff.mp shown
  obtain ⟨who, op, k, at_, test⟩ := Machine.about_next atStart
  obtain ⟨watched, rfl⟩ := starts_true test
  exact claim "a.service" _ 1 hist c _ (.act 2 who _ ()) run (of_decide_eq_true stopped) (.act at_ rfl)
    ⟨watched, rfl⟩

end UserStop
end HomelabDaemon
