import HomelabDaemon.Background
import HomelabDaemon.Concurrency.CheckThenAct
import HomelabDaemon.Patch

/-!
# Two spellings of a unit

A request may name a service with or without its suffix. What it leaves behind is compared: the
flags of the configured services, the mounts it looks at, the mutexes it takes, the systemctl
clients it runs, and the runs of boot and monitor after it. Which unit systemctl takes an argument
for is a parameter.
-/

namespace HomelabDaemon
open Concurrency Program Machine Background

namespace Spelling

structure Effect where
  flags : List Bool
  mounts : List (String × Bool)
  locks : List String
  clients : List (Verb × String)

def mountOf : Act Op Op.Ans → Option (String × Bool)
  | ⟨.ask (.isMounted path), mounted⟩ => some (path, mounted)
  | _ => none

def lockOf : Act Op Op.Ans → Option String
  | ⟨.lockUnit unit, _⟩ => some unit
  | _ => none

def clientOf : Act Op Op.Ans → Option (Verb × String)
  | ⟨.spawn verb argument, _⟩ => some (verb, argument)
  | _ => none

/-- The flags as monitor, boot and status read them: under the names of the configuration. -/
def flags (cfg : Config) (userStopped : Finset String) : List Bool :=
  cfg.services.map fun s => decide (s.unit ∈ userStopped)

/-- No other operation on a unit is going on. -/
def calm (w : World) : World := { w with locks := ∅ }

section Effects
variable (systemctl : String → String)

def clients (trace : List (Act Op Op.Ans)) : List (Verb × String) :=
  (trace.filterMap clientOf).map fun client => (client.1, systemctl client.2)

def observe (cfg : Config) (trace : List (Act Op Op.Ans)) (w' : World) : Effect :=
  ⟨flags cfg w'.userStopped, trace.filterMap mountOf, trace.filterMap lockOf, clients systemctl trace⟩

/-- What a request may do in the world. -/
def effects (request : Request) (w : World) : Set Effect :=
  {o | ∃ trace res w', daemon.Alone (handle request) (calm w) trace res w' ∧ o = observe systemctl w.cfg trace w'}

end Effects

/-- What boot and monitor may do after the request. -/
def futures (ticks : Nat) (request : Request) (w : World) : Set Story :=
  {hist | ∃ res w' c, daemon.Ends (handle request) (calm w) res w' ∧
    daemon.Run (fun _ _ => Undisturbed) (daemon.init w' [.boot, .monitor ticks]) hist c}

inductive Kind where
  | start | stop | restart
  deriving DecidableEq

def Kind.request : Kind → String → Request
  | start => .start
  | stop => .stop
  | restart => .restart

/-- The bare name and the full name do the same. -/
def Equivalent (systemctl : String → String) (kind : Kind) (w : World) (n : String) : Prop :=
  effects systemctl (kind.request n) w = effects systemctl (kind.request (n ++ ".service")) w ∧
  ∀ ticks, futures ticks (kind.request n) w = futures ticks (kind.request (n ++ ".service")) w

variable {cfg : Config}

/-- A read of the flag of a unit that is not configured. -/
def Stray (cfg : Config) : Op → Prop
  | .isUserStopped unit => ∀ s ∈ cfg.services, s.unit ≠ unit
  | _ => False

def Reads (cfg : Config) : (op : Op) → op.Ans → Prop
  | .config, read => read = cfg
  | _, _ => True

theorem stray_silent (q : Query) : ¬ Stray cfg (.ask q) := fun h => h

theorem startUnit_strays {unit : String} : ¬ (startUnit unit).Reaches (Reads cfg) (Stray cfg) := by
  intro h
  rcases startUnit_reaches h with h | h | h | h | h <;> exact h

theorem restartGoroutine_strays {svc : Service} : ¬ (restartGoroutine svc).Reaches (Reads cfg) (Stray cfg) := by
  intro h
  rcases (reaches_bind _ _).mp h with h | ⟨_, _, h⟩
  · rcases restart_reaches stray_silent h with h | h | h
    · exact startUnit_strays h
    · exact h
    · exact h
  · exact (reaches_perform _).mp h

theorem startup_strays : ¬ startup.Reaches (Reads cfg) (Stray cfg) := by
  intro h
  rcases startup_reaches stray_silent h with h | h | ⟨_, rfl, h | ⟨_, _, svc, _, h⟩⟩
  · refine verifyRunningServices_built.within.not_reaches ?_ h
    intro op member strays
    cases op with
    | isUserStopped unit => rcases member with member | member <;> exact member
    | _ => exact strays
  · exact h
  · obtain ⟨_, svc, member, h⟩ := reaches_fold h
    split at h
    · exact h
    rcases (reaches_bind _ _).mp h with h | ⟨_, _, h⟩
    · exact (reaches_perform _).mp h svc member rfl
    · exact h
  · rcases bootService_reaches stray_silent h with h | h
    · exact startUnit_strays h
    · exact h

theorem monitorLoop_strays (n : Nat) (prevFailures : String → Nat) :
    ¬ (monitorLoop n prevFailures).Reaches (Reads cfg) (Stray cfg) := by
  intro h
  rcases monitorLoop_reaches stray_silent h with h | ⟨_, h⟩ | ⟨_, rfl, svc, member, _, h⟩
  · exact h
  · exact h
  rcases supervise_reaches stray_silent h with h | h | h | h | ⟨_, _, h⟩
  · exact h
  · exact h svc member rfl
  · exact h
  · exact h
  · exact h

/-- As long as the configuration stays, the background reads configured flags only. -/
def reader (cfg : Config) : CheckThenAct daemon where
  guard w := w.cfg = cfg
  watched who := who.background = true
  may := Reads cfg
  target := Stray cfg
  answers := by
    intro w op ans permitted stays
    cases op with
    | config =>
      have read : ans = w.cfg := of_decide_eq_true permitted
      exact read.trans (stays.elim id id)
    | _ => trivial
  hands := by
    intro op who forked watched reaches
    cases op with
    | goRestart svc =>
      obtain rfl := List.mem_singleton.mp forked
      exact (restartGoroutine_strays reaches).elim
    | goRunBackup u =>
      obtain rfl := List.mem_singleton.mp forked
      cases watched
    | _ => cases forked
  arrivals := by
    intro who arrives watched
    cases who <;> contradiction
  bystanders := foreground_forks

theorem background_reads {w : World} {ticks : Nat} {hist : Story} {c c' : Configuration} {i : Nat} {who : Actor}
    {unit : String} {ans : Bool}
    (run : daemon.Run (fun _ _ => Undisturbed) (daemon.init w [.boot, .monitor ticks]) hist c)
    (next : daemon.Step c (.act i who (.isUserStopped unit) ans) c') : ∃ s ∈ w.cfg.services, s.unit = unit := by
  have quiet : ∀ {hist c}, daemon.Run (fun _ _ => Undisturbed) (daemon.init w [.boot, .monitor ticks]) hist c →
      Quiet w c := fun run => run_quiet (fun _ _ _ undisturbed => undisturbed) run
  have careful : daemon.Run (reader w.cfg).Careful (daemon.init w [.boot, .monitor ticks]) hist c := by
    refine run.reinforce fun before _ moved _ => ?_
    exact absurd (quiet before).cfg moved
  have fresh : ∀ who ∈ [Actor.boot, .monitor ticks], (reader w.cfg).watched who →
      ¬ (daemon.code who).Reaches (reader w.cfg).may (reader w.cfg).target := by
    intro who member _
    rcases List.mem_cons.mp member with rfl | member
    · exact startup_strays
    · obtain rfl := List.mem_singleton.mp member
      exact monitorLoop_strays ticks _
  have watched : who.background = true := by
    cases next with
    | act at_ permitted => exact (quiet run).pool i _ at_
  have configured := (reader w.cfg).run_safe fresh careful (quiet run).cfg next watched
  by_contra absent
  exact configured fun s member same => absent ⟨s, member, same⟩

/-! ### Worlds that boot and monitor cannot tell apart -/

/-- The same world, but for flags that no service bears. -/
def Alike (cfg : Config) (w v : World) : Prop :=
  v = { w with userStopped := v.userStopped } ∧ ∀ s ∈ cfg.services, s.unit ∈ w.userStopped ↔ s.unit ∈ v.userStopped

theorem alike_symm {w v : World} (h : Alike cfg w v) : Alike cfg v w := by
  obtain ⟨same, flags⟩ := h
  refine ⟨?_, fun s member => (flags s member).symm⟩
  rw [same]

theorem alike_step {w v : World} (h : Alike cfg w v) {op : Op} {ans : op.Ans} (kept : keeps op)
    (configured : ∀ unit, op = .isUserStopped unit → ∃ s ∈ cfg.services, s.unit = unit)
    (permitted : w.permits op ans = true) : v.permits op ans = true ∧ Alike cfg (w.effect op ans)
    (v.effect op ans) := by
  obtain ⟨same, flags⟩ := h
  obtain ⟨_, stopsw⟩ := effect_keeps w ans kept
  obtain ⟨_, stopsv⟩ := effect_keeps v ans kept
  refine ⟨?_, ?_, fun s member => by rw [stopsw, stopsv]; exact flags s member⟩
  · cases op with
    | isUserStopped unit =>
      obtain ⟨s, member, rfl⟩ := configured unit rfl
      have answered : ans = decide (s.unit ∈ w.userStopped) := of_decide_eq_true permitted
      rw [answered, decide_eq_decide.mpr (flags s member)]
      exact decide_eq_true rfl
    | wait verb unit =>
      rw [same]
      cases verb <;> exact permitted
    | createTemp =>
      rw [same]
      cases ans <;> exact permitted
    | _ =>
      rw [same]
      exact permitted
  · rw [stopsv, same]
    cases op with
    | updateConfig | setUserStopped | setAllUserStopped | goRunBackup => exact kept.elim
    | spawn verb unit => cases verb <;> rfl
    | createTemp | writeTemp | renameTemp | removeTemp => cases ans <;> rfl
    | _ => rfl

theorem alike_runs {w v : World} {ticks : Nat} {hist : Story} {c : Configuration} (h : Alike w.cfg w v)
    (run : daemon.Run (fun _ _ => Undisturbed) (daemon.init w [.boot, .monitor ticks]) hist c) :
    ∃ c', daemon.Run (fun _ _ => Undisturbed) (daemon.init v [.boot, .monitor ticks]) hist c' := by
  have act : ∀ {hist c} {i : Nat} {who op} {k : op.Ans → Prog Unit} {ans u},
      daemon.Run (fun _ _ => Undisturbed) (daemon.init w [.boot, .monitor ticks]) hist c →
      Alike w.cfg c.world u → c.pool[i]? = some ⟨who, .call op k⟩ → c.world.permits op ans = true →
      u.permits op ans = true ∧ Alike w.cfg (c.world.effect op ans) (u.effect op ans) := by
    intro hist c i who op k ans u before alike at_ permitted
    have quiet : Quiet w c := run_quiet (fun _ _ _ undisturbed => undisturbed) before
    have uses := run_uses before at_ (quiet.pool i _ at_)
    refine alike_step alike uses.1 ?_ permitted
    rintro unit rfl
    exact background_reads before (.act at_ permitted)
  have env : ∀ {a b move}, Alike w.cfg a b → a.envPermits move = true →
      b.envPermits move = true ∧ Alike w.cfg (a.envEffect move) (b.envEffect move) := by
    intro a b move alike permitted
    obtain ⟨same, flags⟩ := alike
    rw [same]
    cases move with
    | advance duration => exact ⟨rfl, rfl, flags⟩
    | jobEnd unit => exact ⟨permitted, rfl, flags⟩
  obtain ⟨v', run', _⟩ := run.transport (Alike w.cfg) act env h
  exact ⟨_, run'⟩

section Handlers
variable {w w' : World} {unit : String} {res : Response} {trace : List (Act Op Op.Ans)}

theorem alone_accepted {reject accept : Prog Response} (managed : isManaged w.cfg unit = true) :
    daemon.Alone (readConfig >>= fun cfg => if !isManaged cfg unit then reject else accept) w trace res w' ↔
      ∃ rest, trace = ⟨.config, w.cfg⟩ :: rest ∧ daemon.Alone accept w rest res w' := by
  rw [alone_readConfig, managed]
  rfl

/-- A restart request clears the flag of the name it was given, looks at no mount, takes no mutex
and hands the name on. -/
theorem restart_alone (managed : isManaged w.cfg unit = true)
    (h : daemon.Alone (handleRestart unit) w trace res w') :
    w' = { w with userStopped := w.userStopped.erase unit } ∧
    trace.filterMap mountOf = [] ∧ trace.filterMap lockOf = [] ∧ trace.filterMap clientOf = [(.restart, unit)] := by
  obtain ⟨rest, rfl, accepted⟩ := (alone_accepted managed).mp h
  obtain ⟨_, rest, rfl, _, called⟩ := accepted
  obtain ⟨_, rest, rfl, _, waiting⟩ := called
  obtain ⟨exit, rest, rfl, _, h⟩ := waiting
  cases exit with
  | failed message | killed message =>
    obtain ⟨rfl, _, rfl⟩ := h
    exact ⟨rfl, rfl, rfl, rfl⟩
  | ok =>
    change daemon.Alone (ite _ _ _ >>= fun _ => pure Response.success : Prog Response) _ _ _ _ at h
    split at h
    · obtain ⟨_, rest, rfl, _, h⟩ := h
      obtain ⟨rfl, _, rfl⟩ := h
      exact ⟨rfl, rfl, rfl, rfl⟩
    · obtain ⟨rfl, _, rfl⟩ := h
      exact ⟨rfl, rfl, rfl, rfl⟩

theorem restart_possible (managed : isManaged w.cfg unit = true) : ∃ trace,
    daemon.Alone (handleRestart unit) w trace (.failure "") { w with userStopped := w.userStopped.erase unit } := by
  simp only [handleRestart, alone_accepted managed]
  exact ⟨_, _, rfl, (), _, rfl, rfl, (), _, rfl, rfl, .failed "", _, rfl, rfl, rfl, rfl, rfl⟩

/-- Takes no mutex but the one of the name. -/
def takes (unit : String) : Op → Prop
  | .lockUnit u => u = unit
  | _ => True

theorem takes_asks {α : Type} {p : Prog α} (h : AsksOnly p) : p.Uses (takes unit) := by
  refine h.mono fun op asks => ?_
  cases op <;> trivial

theorem startUnit_takes : (startUnit unit).Uses (takes unit) :=
  ⟨trivial, fun _ => ⟨rfl, fun _ => ⟨trivial, fun _ => ⟨trivial, fun _ => ⟨trivial, fun _ => trivial⟩⟩⟩⟩⟩

theorem stopUnit_takes : (stopUnit unit).Uses (takes unit) := by
  refine .bind (.perform rfl) fun _ => .bind (.bind (.perform trivial) fun _ => .perform trivial) fun exit =>
    .bind ?_ fun _ => .bind (.perform trivial) fun _ => .bind (.perform trivial) fun _ => .done _
  split
  · exact takes_asks (clearFailed_asks unit)
  · exact .done _

theorem handleStart_takes : (handleStart unit).Uses (takes unit) := by
  refine .bind (.perform trivial) fun cfg => ?_
  split
  · exact .done _
  refine .bind (.perform trivial) fun _ => .bind (.bind (.perform trivial) fun cfg => ?_) fun unmet => ?_
  · split
    · exact .done _
    · exact takes_asks (checkConstraints_asks _)
  · cases unmet with
    | some error => exact .done _
    | none => exact .bind startUnit_takes fun _ => .done _

theorem handleStop_takes : (handleStop unit).Uses (takes unit) := by
  refine .bind (.perform trivial) fun cfg => ?_
  split
  · exact .done _
  exact .bind (.perform trivial) fun _ => .bind stopUnit_takes fun _ => .done _

theorem own_lock {p : Prog Response} {u : String} (h : p.Uses (takes unit)) (alone : daemon.Alone p w trace res w')
    (locked : u ∈ trace.filterMap lockOf) : u = unit := by
  obtain ⟨⟨op, ans⟩, member, lock⟩ := List.mem_filterMap.mp locked
  have own := Alone.uses h alone _ member
  cases op with
  | lockUnit v =>
    obtain rfl : v = u := Option.some.inj lock
    exact own
  | _ => cases lock

theorem stop_locks (managed : isManaged w.cfg unit = true) (free : unit ∉ w.locks) : ∃ trace res w',
    daemon.Alone (handleStop unit) w trace res w' ∧ unit ∈ trace.filterMap lockOf := by
  have stopped : ∃ rest w', daemon.Alone (setUserStopped unit true >>= fun _ => stopUnit unit >>= fun error =>
      return Response.ofError error) w (⟨.setUserStopped unit true, ()⟩ :: ⟨.lockUnit unit, ()⟩ :: rest)
      (.failure "") w' :=
    ⟨_, _, (), _, rfl, rfl, (), _, rfl, decide_eq_true free, (), _, rfl, rfl, .failed "", _, rfl, rfl,
      (), _, rfl, rfl, (), _, rfl, rfl, rfl, rfl, rfl⟩
  obtain ⟨rest, w', stopped⟩ := stopped
  exact ⟨_, _, w', (alone_accepted managed).mpr ⟨_, rfl, stopped⟩, List.mem_cons_self⟩

theorem checkConstraints_alone (s : Service) : ∃ trace, daemon.Alone (checkConstraints s) w trace none w := by
  unfold checkConstraints
  induction s.requiresMounts with
  | nil => exact ⟨[], rfl, rfl, rfl⟩
  | cons mnt mounts ih =>
    obtain ⟨trace, rest⟩ := ih
    exact ⟨_, true, trace, rfl, rfl, rest⟩

theorem constraintsOf_alone (w : World) (name : String) :
    ∃ trace, daemon.Alone (constraintsOf name) w trace none w := by
  simp only [constraintsOf, alone_readConfig]
  cases w.cfg.services.find? (·.unit == name) with
  | none => exact ⟨_, [], rfl, rfl, rfl, rfl⟩
  | some s =>
    obtain ⟨rest, looked⟩ := checkConstraints_alone s
    exact ⟨_, rest, rfl, looked⟩

theorem startUnit_alone (w : World) (free : unit ∉ w.locks) : ∃ trace w',
    daemon.Alone (startUnit unit) w trace (some "") w' ∧ unit ∈ trace.filterMap lockOf := by
  have started : ∃ rest w', daemon.Alone (startUnit unit) w
      (⟨.mark (.startUnit unit), ()⟩ :: ⟨.lockUnit unit, ()⟩ :: rest) (some "") w' :=
    ⟨_, _, (), _, rfl, rfl, (), _, rfl, decide_eq_true free, (), _, rfl, rfl, .killed "", _, rfl, rfl,
      (), _, rfl, rfl, rfl, rfl, rfl⟩
  obtain ⟨rest, w', started⟩ := started
  exact ⟨_, w', started, List.mem_cons_self⟩

theorem start_locks (managed : isManaged w.cfg unit = true) (free : unit ∉ w.locks) : ∃ trace res w',
    daemon.Alone (handleStart unit) w trace res w' ∧ unit ∈ trace.filterMap lockOf := by
  obtain ⟨looks, looked⟩ := constraintsOf_alone { w with userStopped := w.userStopped.erase unit } unit
  obtain ⟨starts, w', started, locked⟩ := startUnit_alone { w with userStopped := w.userStopped.erase unit } free
  refine ⟨_, .failure "", w', (alone_accepted managed).mpr
    ⟨[⟨.setUserStopped unit false, ()⟩] ++ (looks ++ (starts ++ [])), rfl, ?_⟩, ?_⟩
  · exact alone_bind.mpr ⟨_, _, (), _, rfl, ⟨(), _, rfl, rfl, rfl, rfl, rfl⟩,
      alone_bind.mpr ⟨looks, _, none, _, rfl, looked,
      alone_bind.mpr ⟨starts, [], _, _, rfl, started, rfl, rfl, rfl⟩⟩⟩
  simp only [List.append_nil, List.filterMap_cons, List.filterMap_append]
  exact List.mem_append_right _ (List.mem_append_right _ locked)

end Handlers

/-! ### The two spellings -/

section Spellings
variable {systemctl : String → String} {w : World} {n : String} {svc : Service}

theorem bare_ne_full (n : String) : n ≠ n ++ ".service" := by
  intro same
  have lengths := congrArg String.length same
  rw [String.length_append] at lengths
  have suffix : ".service".length = 8 := rfl
  omega

theorem managed_bare (member : svc ∈ w.cfg.services) (named : svc.unit = n ++ ".service")
    (bare : hasSuffix n ".service" = false) : isManaged w.cfg n = true := by
  refine List.any_eq_true.mpr ⟨svc, member, beq_iff_eq.mpr ?_⟩
  rw [withServiceSuffix, bare]
  exact named

theorem managed_full (member : svc ∈ w.cfg.services) (named : svc.unit = n ++ ".service") :
    isManaged w.cfg (n ++ ".service") = true := by
  refine List.any_eq_true.mpr ⟨svc, member, beq_iff_eq.mpr ?_⟩
  rw [withServiceSuffix_of_suffix (hasSuffix_append n ".service")]
  exact named

theorem locks_differ {bareRequest fullRequest : Request} (takesBare : (handle bareRequest).Uses (takes n))
    (locksFull : ∃ trace res w', daemon.Alone (handle fullRequest) (calm w) trace res w' ∧
      n ++ ".service" ∈ trace.filterMap lockOf) :
      effects systemctl bareRequest w ≠ effects systemctl fullRequest w := by
  intro same
  obtain ⟨trace, res, w', alone, locked⟩ := locksFull
  have both : observe systemctl w.cfg trace w' ∈ effects systemctl bareRequest w := same ▸ ⟨trace, res, w', alone, rfl⟩
  obtain ⟨trace', res', v, alone', seen⟩ := both
  have locks : trace.filterMap lockOf = trace'.filterMap lockOf := congrArg Effect.locks seen
  rw [locks] at locked
  exact bare_ne_full n (own_lock takesBare alone' locked).symm

theorem restart_effects {unit : String} (managed : isManaged w.cfg unit = true) :
    effects systemctl (.restart unit) w =
    {⟨flags w.cfg (w.userStopped.erase unit), [], [], [(.restart, systemctl unit)]⟩} := by
  have accepted : isManaged (calm w).cfg unit = true := managed
  apply Set.eq_singleton_iff_unique_mem.mpr
  constructor
  · obtain ⟨trace, alone⟩ := restart_possible accepted
    obtain ⟨_, mounts, locks, runs⟩ := restart_alone accepted alone
    exact ⟨trace, _, _, alone, by rw [observe, clients, mounts, locks, runs]; rfl⟩
  · rintro o ⟨trace, res, w', alone, rfl⟩
    obtain ⟨rfl, mounts, locks, runs⟩ := restart_alone accepted alone
    rw [observe, clients, mounts, locks, runs]
    rfl

theorem restart_futures {unit : String} (managed : isManaged w.cfg unit = true) (ticks : Nat) (hist : Story) :
    hist ∈ futures ticks (.restart unit) w ↔ ∃ c, daemon.Run (fun _ _ => Undisturbed)
      (daemon.init { calm w with userStopped := w.userStopped.erase unit } [.boot, .monitor ticks]) hist c := by
  have accepted : isManaged (calm w).cfg unit = true := managed
  constructor
  · rintro ⟨res, w', c, ⟨trace, alone⟩, run⟩
    obtain ⟨rfl, _⟩ := restart_alone accepted alone
    exact ⟨c, run⟩
  · rintro ⟨c, run⟩
    obtain ⟨trace, alone⟩ := restart_possible accepted
    exact ⟨_, _, c, ⟨trace, alone⟩, run⟩

theorem flags_eq_iff {cfg : Config} {first second : Finset String} :
    flags cfg first = flags cfg second ↔ ∀ s ∈ cfg.services, s.unit ∈ first ↔ s.unit ∈ second := by
  unfold flags
  simp only [List.map_inj_left, decide_eq_decide]

/-- Clearing the bare name instead of the full one shows under a configured name. -/
theorem erase_alike_iff (member : svc ∈ w.cfg.services) (named : svc.unit = n ++ ".service") :
    (∀ s ∈ w.cfg.services, s.unit ∈ w.userStopped.erase n ↔ s.unit ∈ w.userStopped.erase (n ++ ".service")) ↔
      n ++ ".service" ∉ w.userStopped ∧ (n ∈ w.userStopped → ∀ s ∈ w.cfg.services, s.unit ≠ n) := by
  simp only [Finset.mem_erase]
  constructor
  · intro alike
    refine ⟨fun stopped => ?_, fun stopped s configured same => ?_⟩
    · have own := (alike svc member).mp ⟨named ▸ (bare_ne_full n).symm, named ▸ stopped⟩
      exact own.1 named
    · have own := (alike s configured).mpr ⟨same ▸ bare_ne_full n, same ▸ stopped⟩
      exact own.1 same
  · rintro ⟨clear, unseen⟩ s configured
    refine and_congr_left fun stopped => ?_
    have notFull : s.unit ≠ n ++ ".service" := fun same => clear (same ▸ stopped)
    have notBare : s.unit ≠ n := fun same => unseen (same ▸ stopped) s configured same
    exact iff_of_true notBare notFull

theorem restart_equivalent_iff (member : svc ∈ w.cfg.services) (named : svc.unit = n ++ ".service")
    (bare : hasSuffix n ".service" = false) : Equivalent systemctl .restart w n ↔
      systemctl n = systemctl (n ++ ".service") ∧ n ++ ".service" ∉ w.userStopped ∧
      (n ∈ w.userStopped → ∀ s ∈ w.cfg.services, s.unit ≠ n) := by
  have managed := managed_bare member named bare
  have managed' := managed_full member named
  rw [← erase_alike_iff member named, ← flags_eq_iff]
  constructor
  · rintro ⟨same, _⟩
    change effects systemctl (.restart n) w = effects systemctl (.restart (n ++ ".service")) w at same
    rw [restart_effects managed, restart_effects managed'] at same
    have same := Set.singleton_eq_singleton_iff.mp same
    refine ⟨?_, congrArg Effect.flags same⟩
    simpa using congrArg Effect.clients same
  · rintro ⟨unit, same⟩
    constructor
    · change effects systemctl (.restart n) w = effects systemctl (.restart (n ++ ".service")) w
      rw [restart_effects managed, restart_effects managed', same, unit]
    · intro ticks
      have alike : Alike w.cfg { calm w with userStopped := w.userStopped.erase n }
          { calm w with userStopped := w.userStopped.erase (n ++ ".service") } :=
        ⟨rfl, flags_eq_iff.mp same⟩
      ext hist
      refine (restart_futures managed ticks hist).trans (Iff.trans ?_ (restart_futures managed' ticks hist).symm)
      constructor
      · rintro ⟨c, run⟩
        exact alike_runs alike run
      · rintro ⟨c, run⟩
        exact alike_runs (alike_symm alike) run

/-- For which requests the spelling of a service's name makes no difference, however systemctl reads names. -/
theorem equivalent_iff {kind : Kind} (member : svc ∈ w.cfg.services) (named : svc.unit = n ++ ".service")
    (bare : hasSuffix n ".service" = false) : Equivalent systemctl kind w n ↔
      kind = .restart ∧ systemctl n = systemctl (n ++ ".service") ∧ n ++ ".service" ∉ w.userStopped ∧
      (n ∈ w.userStopped → ∀ s ∈ w.cfg.services, s.unit ≠ n) := by
  have free : n ++ ".service" ∉ (calm w).locks := Finset.notMem_empty _
  have managed : isManaged (calm w).cfg (n ++ ".service") = true := managed_full member named
  cases kind with
  | start =>
    refine ⟨fun same => absurd same.1 ?_, fun h => nomatch h.1⟩
    exact locks_differ handleStart_takes (start_locks managed free)
  | stop =>
    refine ⟨fun same => absurd same.1 ?_, fun h => nomatch h.1⟩
    exact locks_differ handleStop_takes (stop_locks managed free)
  | restart => simp only [restart_equivalent_iff member named bare, true_and]

end Spellings

/-! ### A service and its bare name -/

def service : Service := { unit := "a.service", enabled := true, restart := "unless-stopped" }

def world : World := { cfg := { version := 1, services := [service] } }

/-- The unit that systemctl takes a name for. -/
def completed (name : String) : String :=
  if [".service", ".socket", ".target", ".device", ".mount", ".automount", ".swap", ".timer", ".path", ".slice",
    ".scope"].any
    (hasSuffix name) then name else name ++ ".service"

/-- Restarting a service that was not stopped. -/
theorem equivalent_iff_restart : Equivalent completed .restart world "a" :=
  (equivalent_iff List.mem_cons_self rfl (by decide)).mpr (by decide)

/-- A stop by the bare name sets a flag that nobody reads, under a mutex of its own. -/
theorem stop_differs : ¬ ∀ (kind : Kind) (w : World) (n : String) (svc : Service), svc ∈ w.cfg.services →
    svc.unit = n ++ ".service" → hasSuffix n ".service" = false → Equivalent completed kind w n := by
  intro claim
  have same := claim .stop world "a" service List.mem_cons_self rfl (by decide)
  have managed : isManaged (calm world).cfg ("a" ++ ".service") = true := by decide
  have differ : effects completed (.stop "a") world ≠ effects completed (.stop ("a" ++ ".service")) world :=
    locks_differ handleStop_takes (stop_locks managed (Finset.notMem_empty _))
  exact differ same.1

end Spelling
end HomelabDaemon
