import HomelabDaemon.Attempts

/-!
# Escalating backoff

The failure count of a unit whose restarts do not hold: it is the number of attempts, as long
as no tick resets the breaker after a failure has been counted.
-/

namespace HomelabDaemon
open Concurrency Program InFlight Attempts

namespace Backoff

/-- An attempt: a restart of the monitor begins to start the unit. -/
def isAttempt (unit : String) : Step → Bool
  | .act _ (.restart _) op _ => isStart unit op
  | _ => false

def attempts (unit : String) (hist : Story) : Nat := hist.countP (isAttempt unit)

/-- The unit is inactive at every settle check, no settle time is cut short, and no request
resets its breaker. -/
def Flapping (unit : String) (hist : Story) (_ : Configuration) : Step → Prop
  | .act i (.restart svc) (.ask (.isActive u)) active =>
    svc.unit = unit → settled (past i hist) = true → u = unit → active = false
  | .act _ (.restart svc) (.ask (.sleep .settle _)) fired => svc.unit = unit → fired = true
  | .act _ (.api _) (.breakerReset u) _ => u ≠ unit
  | _ => True

/-- A tick that finds the unit active finds no failure counted. -/
def Unseen (unit : String) (_ : Story) (c : Configuration) : Step → Prop
  | .act _ (.monitor _) (.breakerReset u) _ => u = unit → (c.world.breaker unit).consecutive = 0
  | _ => True

def Escaped (unit : String) (hist : Story) (c : Configuration) (e : Step) : Prop :=
  Flapping unit hist c e ∧ Unseen unit hist c e

/-- A restart of the unit has begun its start and not yet counted the failure. -/
def Open (unit : String) (hist : Story) (c : Configuration) (i : Nat) : Prop :=
  ∃ svc code, c.pool[i]? = some ⟨.restart svc, code⟩ ∧ svc.unit = unit ∧
    began unit (past i hist) = true ∧ counted unit (past i hist) = false

structure Counts (unit : String) (hist : Story) (c : Configuration) : Prop where
  closed : (∀ i, ¬ Open unit hist c i) → (c.world.breaker unit).consecutive = attempts unit hist
  open_ : ∀ i, Open unit hist c i → (c.world.breaker unit).consecutive + 1 = attempts unit hist
  freed : ∀ i, Open unit hist c i → released (past i hist) = false

section Run
variable {unit : String} {w : World} {ticks : Nat} {hist : Story} {c c' : Configuration} {e : Step}

theorem run_allowed (run : daemon.Run (Escaped unit) (started w ticks) hist c) {i : Nat} {who : Actor} {op : Op}
    {k : op.Ans → Prog Unit} (at_ : c.pool[i]? = some ⟨who, .call op k⟩) :
    (contract (·.unit = unit) who).allow (past i hist) op := by
  refine (run.meets (contract (·.unit = unit)) (code_meets _) ?_ at_).1
  intro hist c i who op k ans _ met _ _
  cases who with
  | restart svc =>
    intro same
    cases op with
    | ask q =>
      cases q with
      | isActive u => exact fun judging named => met.1 same judging (named.trans same)
      | sleep why seconds => cases why <;> first | exact met.1 same | trivial
      | _ => trivial
    | _ => trivial
  | _ => trivial

theorem open_unique (run : daemon.Run (Escaped unit) (started w ticks) hist c) (counts : Counts unit hist c)
    {i j : Nat} {svc : Service} {code : Prog Unit} (first : c.pool[i]? = some ⟨.restart svc, code⟩)
    (same : svc.unit = unit) (alive : released (past i hist) = false) (second : Open unit hist c j) : i = j := by
  have freed := counts.freed j second
  obtain ⟨svc', code', found, same', _⟩ := second
  exact restart_unique run first found (same.trans same'.symm) alive freed

/-- A step that neither begins an attempt nor counts a failure leaves what is open. -/
theorem open_step (run : daemon.Run (Escaped unit) (started w ticks) hist c) (next : daemon.Step c e c')
    (quiet : ∀ i svc op ans, e = .act i (.restart svc) op ans → isStart unit op = false ∧ isFailure unit op = false)
    (j : Nat) : Open unit (e :: hist) c' j ↔ Open unit hist c j := by
  have same : ∀ {svc code}, c.pool[j]? = some ⟨.restart svc, code⟩ →
      began unit (past j (e :: hist)) = began unit (past j hist) ∧
      counted unit (past j (e :: hist)) = counted unit (past j hist) := by
    intro svc code found
    cases next with
    | @act i who op k ans at_ permitted =>
      by_cases mine : i = j
      · subst mine
        obtain ⟨rfl, _⟩ := Thread.mk.inj (Option.some.inj (at_.symm.trans found))
        obtain ⟨noStart, noFailure⟩ := quiet _ _ _ _ rfl
        simp [began, counted, noStart, noFailure]
      · rw [past_act_ne mine]
        exact ⟨rfl, rfl⟩
    | env permitted | arrive arrives => exact ⟨rfl, rfl⟩
  constructor
  · rintro ⟨svc, code, found, named, begun, uncounted⟩
    rcases next.origin found with ⟨old, _⟩ | ⟨_, _, _, old, _, _⟩ | ⟨outside, _, _⟩
    · exact ⟨svc, _, old, named, (same old).1 ▸ begun, (same old).2 ▸ uncounted⟩
    · exact ⟨svc, _, old, named, (same old).1 ▸ begun, (same old).2 ▸ uncounted⟩
    · rw [next.past_outside outside, run.past_outside outside] at begun
      cases begun
  · rintro ⟨svc, code, found, named, begun, uncounted⟩
    obtain ⟨code', found'⟩ := next.keeps found
    exact ⟨svc, code', found', named, (same found).1 ▸ begun, (same found).2 ▸ uncounted⟩

theorem counts_quiet (run : daemon.Run (Escaped unit) (started w ticks) hist c) (counts : Counts unit hist c)
    (next : daemon.Step c e c')
    (quiet : ∀ i svc op ans, e = .act i (.restart svc) op ans → isStart unit op = false ∧ isFailure unit op = false)
    (consecutive : (c'.world.breaker unit).consecutive = (c.world.breaker unit).consecutive)
    (freed : ∀ j, Open unit hist c j → released (past j (e :: hist)) = false) : Counts unit (e :: hist) c' := by
  have noAttempt : isAttempt unit e = false := by
    unfold isAttempt
    split
    · exact (quiet _ _ _ _ rfl).1
    · rfl
  have count : attempts unit (e :: hist) = attempts unit hist := by
    simp [attempts, noAttempt]
  constructor
  · intro none
    rw [consecutive, count]
    exact counts.closed fun i opened => none i ((open_step run next quiet i).mpr opened)
  · intro i opened
    rw [consecutive, count]
    exact counts.open_ i ((open_step run next quiet i).mp opened)
  · intro i opened
    exact freed i ((open_step run next quiet i).mp opened)

/-- What is open in another thread was open before. -/
theorem open_other (run : daemon.Run (Escaped unit) (started w ticks) hist c) {a j : Nat} {who : Actor} {op : Op}
    {ans : op.Ans} (next : daemon.Step c (.act a who op ans) c') (other : a ≠ j)
    (opened : Open unit (.act a who op ans :: hist) c' j) : Open unit hist c j := by
  obtain ⟨svc, code, found, named, begun, uncounted⟩ := opened
  rw [past_act_ne other] at begun uncounted
  rcases next.origin found with ⟨old, _⟩ | ⟨_, _, _, _, eq, _⟩ | ⟨outside, _, _⟩
  · exact ⟨svc, code, old, named, begun, uncounted⟩
  · cases eq
    exact absurd rfl other
  · rw [run.past_outside outside] at begun
    cases begun

theorem counts_attempt (run : daemon.Run (Escaped unit) (started w ticks) hist c) (counts : Counts unit hist c)
    {a : Nat} {svc : Service} {k : (Op.mark (.startUnit unit)).Ans → Prog Unit} {ans : (Op.mark (.startUnit unit)).Ans}
    (at_ : c.pool[a]? = some ⟨.restart svc, .call (.mark (.startUnit unit)) k⟩)
    (next : daemon.Step c (.act a (.restart svc) (.mark (.startUnit unit)) ans) c') :
    Counts unit (.act a (.restart svc) (.mark (.startUnit unit)) ans :: hist) c' := by
  obtain ⟨named, fresh, uncounted⟩ := run_allowed run at_
  rw [← named] at fresh uncounted
  have alive := (InFlight.run_allowed run at_).1
  have none : ∀ j, ¬ Open unit hist c j := by
    intro j opened
    obtain rfl := open_unique run counts at_ named.symm alive opened
    obtain ⟨_, _, _, _, begun, _⟩ := opened
    rw [begun] at fresh
    cases fresh
  have consecutive : (c'.world.breaker unit).consecutive + 1 =
      attempts unit (.act a (.restart svc) (.mark (.startUnit unit)) ans :: hist) := by
    have count : attempts unit (.act a (.restart svc) (.mark (.startUnit unit)) ans :: hist) =
        attempts unit hist + 1 := by
      simp [attempts, isAttempt, isStart]
    rw [count, ← counts.closed none]
    cases next
    rfl
  refine ⟨fun closed => ?_, fun _ _ => consecutive, fun j opened => ?_⟩
  · obtain ⟨code, found⟩ := next.keeps at_
    refine absurd ⟨svc, code, found, named.symm, ?_, ?_⟩ (closed a)
    · simp [began, isStart]
    · rw [past_act]
      exact uncounted
  · by_cases mine : a = j
    · subst mine
      rw [past_act]
      exact alive
    · exact absurd (open_other run next mine opened) (none j)

theorem counts_failure (run : daemon.Run (Escaped unit) (started w ticks) hist c) (counts : Counts unit hist c)
    {a : Nat} {svc : Service} {k : (Op.recordFailure unit).Ans → Prog Unit} {d : (Op.recordFailure unit).Ans}
    (at_ : c.pool[a]? = some ⟨.restart svc, .call (.recordFailure unit) k⟩)
    (next : daemon.Step c (.act a (.restart svc) (.recordFailure unit) d) c') :
    Counts unit (.act a (.restart svc) (.recordFailure unit) d :: hist) c' := by
  obtain ⟨named, begun, uncounted⟩ := run_allowed run at_
  rw [← named] at begun uncounted
  have alive := (InFlight.run_allowed run at_).1
  have opened : Open unit hist c a := ⟨svc, _, at_, named.symm, begun, uncounted⟩
  have none : ∀ j, ¬ Open unit (.act a (.restart svc) (.recordFailure unit) d :: hist) c' j := by
    intro j still
    by_cases mine : a = j
    · subst mine
      obtain ⟨_, _, _, _, _, still⟩ := still
      simp [counted, isFailure] at still
    · exact mine (open_unique run counts at_ named.symm alive (open_other run next mine still))
  refine ⟨fun _ => ?_, fun j still => absurd still (none j), fun j still => absurd still (none j)⟩
  have count : attempts unit (.act a (.restart svc) (.recordFailure unit) d :: hist) = attempts unit hist := by
    simp [attempts, isAttempt, isStart]
  have consecutive : (c'.world.breaker unit).consecutive = (c.world.breaker unit).consecutive + 1 := by
    cases next
    simp [daemon, World.effect_breaker]
  rw [count, consecutive, counts.open_ a opened]

theorem counts_act (run : daemon.Run (Escaped unit) (started w ticks) hist c) (counts : Counts unit hist c)
    {a : Nat} {who : Actor} {op : Op} {k : op.Ans → Prog Unit} {ans : op.Ans}
    (at_ : c.pool[a]? = some ⟨who, .call op k⟩) (met : Escaped unit hist c (.act a who op ans))
    (next : daemon.Step c (.act a who op ans) c') : Counts unit (.act a who op ans :: hist) c' := by
  have allowed := run_allowed run at_
  have world : c'.world.breaker = (c.world.effect op ans).breaker := by
    cases next
    rfl
  rw [World.effect_breaker] at world
  -- a step that touches neither the attempt of the thread nor the breaker of the unit
  have quietly : (∀ svc, who = .restart svc → isStart unit op = false ∧ isFailure unit op = false) →
      (c'.world.breaker unit).consecutive = (c.world.breaker unit).consecutive →
      Counts unit (.act a who op ans :: hist) c' := by
    intro quiet consecutive
    refine counts_quiet run counts next ?_ consecutive ?_
    · rintro i svc op' ans' eq
      cases eq
      exact quiet svc rfl
    · intro j opened
      by_cases mine : a = j
      · subst mine
        obtain ⟨svc, code, found, named, begun, uncounted⟩ := opened
        obtain ⟨rfl, _⟩ := Thread.mk.inj (Option.some.inj (at_.symm.trans found))
        have alive := (InFlight.run_allowed run at_).1
        have noDelete : isDelete op = false := by
          cases op with
          | inFlightDelete u =>
            have judged := allowed named (named ▸ begun)
            rw [named, uncounted] at judged
            cases judged
          | _ => rfl
        rw [past_act]
        simpa [released, noDelete] using alive
      · rw [past_act_ne mine]
        exact counts.freed j opened
  cases op with
  | mark m =>
    cases m with
    | startUnit u =>
      by_cases same : u = unit
      · subst same
        cases who with
        | restart svc => exact counts_attempt run counts at_ next
        | _ => exact quietly (fun _ eq => by cases eq) (by rw [world])
      · exact quietly (fun _ _ => ⟨by simp [isStart, same], rfl⟩) (by rw [world])
    | _ => exact quietly (fun _ _ => ⟨rfl, rfl⟩) (by rw [world])
  | recordFailure u =>
    cases who with
    | restart svc =>
      by_cases same : u = unit
      · subst same
        exact counts_failure run counts at_ next
      · exact quietly (fun _ _ => ⟨rfl, by simp [isFailure, same]⟩) (by simp [world, Ne.symm same])
    | _ => exact allowed.elim
  | breakerReset u =>
    refine quietly (fun _ _ => ⟨rfl, rfl⟩) ?_
    rw [world]
    by_cases same : u = unit
    · subst same
      cases who with
      | restart svc => exact absurd allowed.1.symm allowed.2
      | api request => exact absurd rfl met.1
      | monitor n => simpa using (met.2 rfl).symm
      | _ => exact allowed.elim
    · simp [Ne.symm same]
  | _ => exact quietly (fun _ _ => ⟨rfl, rfl⟩) (by rw [world])

theorem run_counts (run : daemon.Run (Escaped unit) (started w ticks) hist c) : Counts unit hist c := by
  induction run with
  | start =>
    have none : ∀ i, ¬ Open unit [] (started w ticks) i := by
      rintro i ⟨_, _, _, _, begun, _⟩
      cases begun
    exact ⟨fun _ => rfl, fun i opened => absurd opened (none i), fun i opened => absurd opened (none i)⟩
  | @step hist c c' e before met next ih =>
    cases e with
    | act a who op ans =>
      have step := next
      cases next with
      | act at_ permitted => exact counts_act before ih at_ met step
    | env move =>
      refine counts_quiet before ih next (fun _ _ _ _ eq => (nomatch eq)) ?_ ih.freed
      cases next
      cases move <;> rfl
    | arrive who =>
      refine counts_quiet before ih next (fun _ _ _ _ eq => (nomatch eq)) ?_ ih.freed
      cases next
      rfl

/-- The failures of a unit follow its attempts. -/
structure Escalates (unit : String) (hist : Story) (c : Configuration) : Prop where
  /-- After k attempts, all judged, the failure count is k. -/
  count : (∀ i, ¬ Open unit hist c i) → (c.world.breaker unit).consecutive = attempts unit hist
  /-- The failure of the k-th attempt applies entry min (k - 1) 4. -/
  backoff : ∀ i who d c', daemon.Step c (.act i who (.recordFailure unit) d) c' →
    d = backoffSchedule.getD (min (attempts unit hist - 1) 4) 0

/-- Backoff escalates in every run of a flapping unit in which no tick sees the unit active
once a failure is counted. -/
theorem backoff_escalates (run : daemon.Run (Escaped unit) (started w ticks) hist c) : Escalates unit hist c := by
  have counts := run_counts run
  refine ⟨counts.closed, fun i who d c' next => ?_⟩
  cases next with
  | act at_ permitted =>
    have applied : d = ((c.world.breaker unit).recordFailure c.world.now).2 := of_decide_eq_true permitted
    have allowed := run_allowed run at_
    cases who with
    | restart svc =>
      obtain ⟨named, begun, uncounted⟩ := allowed
      rw [← named] at begun uncounted
      have k := counts.open_ i ⟨svc, _, at_, named.symm, begun, uncounted⟩
      rw [applied, UnitBreaker.recordFailure_backoff, ← k, Nat.add_sub_cancel]
    | _ => exact allowed.elim

end Run

/-! ### Schedules -/

/-- A check that is enough for `Flapping`: no restart sees anything active. -/
def gloomy (_ : Story) (_ : Configuration) : Step → Bool
  | .act _ (.restart _) (.ask (.isActive _)) active => !active
  | .act _ (.restart _) (.ask (.sleep .settle _)) fired => fired
  | .act _ (.api _) (.breakerReset _) _ => false
  | _ => true

/-- The same for `Escaped`: no tick resets a breaker. -/
def unseen (hist : Story) (c : Configuration) : Step → Bool
  | .act _ (.monitor _) (.breakerReset _) _ => false
  | e => gloomy hist c e

theorem gloomy_flapping {unit : String} {hist : Story} {c : Configuration} {e : Step}
    (h : gloomy hist c e = true) : Flapping unit hist c e := by
  unfold Flapping
  split
  · exact fun _ _ _ => by simpa [gloomy] using h
  · exact fun _ => h
  · cases h
  · trivial

theorem unseen_escaped {unit : String} {hist : Story} {c : Configuration} {e : Step}
    (h : unseen hist c e = true) : Escaped unit hist c e := by
  unfold unseen at h
  split at h
  · cases h
  · rename_i noReset
    refine ⟨gloomy_flapping h, ?_⟩
    unfold Unseen
    split
    · rename_i i n u
      exact absurd rfl (noReset _ _ _ _)
    · trivial

def world : World :=
  { cfg := { version := 1, services := [{ unit := "a.service", enabled := true, restart := "always" }] } }

/-- A tick spawns a restart, whose start holds until the settle time begins. -/
def attempt (tickOps i : Nat) : Schedule :=
  [.go 1 {} tickOps, .go i {} 3, .env (.jobEnd "a.service"), .go i {} 2]

/-- Two attempts, the second about to be counted. -/
theorem backoff_escalates_twice : ∃ hist c, attempts "a.service" hist = 2 ∧
    daemon.Run (Escaped "a.service") (started world 2) hist c ∧ Escalates "a.service" hist c := by
  obtain ⟨hist, c, run, shown⟩ := schedule_run unseen world 2
    (attempt 9 2 ++ [.go 2 {} 4] ++ attempt 10 3 ++ [.go 3 {} 2])
    (fun s => attempts "a.service" s.1 == 2) (by decide)
  have escaped : daemon.Run (Escaped "a.service") (started world 2) hist c :=
    run.weaken fun _ _ _ met => unseen_escaped met
  exact ⟨hist, c, by simpa using shown, escaped, backoff_escalates escaped⟩

/-- A tick between a start and its settle check forgets the failures before. -/
theorem backoff_reset : ¬ ∀ (unit : String) (w : World) (ticks : Nat) (hist : Story) (c : Configuration),
    daemon.Run (Flapping unit) (started w ticks) hist c → Escalates unit hist c := by
  intro claim
  obtain ⟨hist, c, run, shown⟩ := schedule_run gloomy world 3
    (attempt 9 2 ++ [.go 2 {} 4] ++ attempt 10 3 ++ [.go 1 { active := ["a.service"] } 7, .go 3 {} 2])
    (fun s => Machine.about s.2 3 (fun _ op => isFailure "a.service" op) && attempts "a.service" s.1 == 2 &&
      (s.2.world.breaker "a.service").consecutive == 0) (by decide)
  simp only [Bool.and_eq_true, beq_iff_eq] at shown
  obtain ⟨⟨atFailure, tries⟩, forgotten⟩ := shown
  obtain ⟨who, op, k, at_, test⟩ := Machine.about_next atFailure
  have escalates := claim "a.service" world 3 hist c (run.weaken fun _ _ _ met => gloomy_flapping met)
  cases op with
  | recordFailure u =>
    obtain rfl : u = "a.service" := by simpa [isFailure] using test
    have applied := escalates.backoff 3 who _ _ (.act at_ (decide_eq_true rfl))
    rw [tries, UnitBreaker.recordFailure_backoff, forgotten] at applied
    revert applied
    decide
  | _ => cases test

end Backoff
end HomelabDaemon
