import HomelabDaemon.CliCommands

/-!
# Actions on all units

What start-all, stop-all and the verification of running services count, in every interleaving: a handler's past is what
it has itself done, with any answers.
-/

namespace HomelabDaemon
open Concurrency Program

namespace Bulk
open Cli (fails)

variable {past past' : Past Op Op.Ans} {unit : String} {svc : Service}

/-- The program returns an error for the one failure among its answers, or none. -/
def Counts (p : Prog (Option String)) : Prop :=
  ∀ {past r past'}, p.Path past r past' → past'.countP fails = past.countP fails + r.isSome.toNat

theorem startUnit_counts (unit : String) : Counts (startUnit unit) := by
  rintro past r past' ⟨_, _, _, exit, _, rfl, rfl⟩
  cases failed : exit.error.isSome <;> simp [fails, failed]

theorem clearFailed_countP (path : (clearFailed unit).Path past () past') : past'.countP fails = past.countP fails := by
  obtain ⟨state, path⟩ := path
  change Path (if state = "failed" then _ else _) _ _ _ at path
  split at path
  · obtain ⟨_, _, rfl⟩ := path
    simp [fails]
  · obtain ⟨_, rfl⟩ := path
    simp [fails]

theorem stopUnit_counts (unit : String) : Counts (stopUnit unit) := by
  rintro past r past' ⟨_, _, exit, path⟩
  change Path ((if exit = .ok then clearFailed unit else pure ()) >>= _) _ _ _ at path
  obtain ⟨_, mid, cleared, _, _, rfl, rfl⟩ := path_bind.mp path
  have same : mid.countP fails = past.countP fails + exit.error.isSome.toNat := by
    split at cleared
    · rename_i ok
      rw [clearFailed_countP cleared, ok]
      simp [fails, Exit.error]
    · obtain ⟨_, rfl⟩ := cleared
      cases failed : exit.error.isSome <;> simp [fails, failed]
  simpa [fails] using same

theorem firstSome_counts {α : Type} {body : α → Prog (Option String)} (each : ∀ x, Counts (body x)) (xs : List α) :
    Counts (firstSome body xs) := by
  induction xs with
  | nil =>
    rintro past r past' ⟨rfl, rfl⟩
    rfl
  | cons x xs ih =>
    intro past r past' path
    obtain ⟨first, mid, one, rest⟩ := path_bind.mp path
    have counted := each x one
    cases first with
    | some error =>
      obtain ⟨rfl, rfl⟩ := rest
      exact counted
    | none =>
      rw [ih rest, counted]
      rfl

theorem checkConstraints_counts (svc : Service) : Counts (checkConstraints svc) := by
  refine firstSome_counts (fun mnt => ?_) _
  rintro past r past' ⟨mounted, rfl, rfl⟩
  cases mounted <;> simp [fails]

theorem constraintsOf_counts (unit : String) : Counts (constraintsOf unit) := by
  rintro past r past' ⟨cfg, path⟩
  dsimp only [Program.bind] at path
  split at path
  · obtain ⟨rfl, rfl⟩ := path
    simp [fails]
  · exact (checkConstraints_counts _ path).trans (by simp [fails])

/-- A client of systemctl has ended, well or not. -/
def Ended (verb : Verb) (past : Past Op Op.Ans) (unit : String) (well : Bool) : Prop :=
  ∃ exit, ⟨.wait verb unit, exit⟩ ∈ past ∧ exit.error.isNone = well

/-- Every required mount has been found. -/
def Admitted (past : Past Op Op.Ans) (svc : Service) : Prop := ∀ mnt ∈ svc.requiresMounts,
    ⟨.ask (.isMounted mnt), true⟩ ∈ past

/-- A required mount has been found missing. -/
def Refused (past : Past Op Op.Ans) (svc : Service) : Prop := ∃ mnt ∈ svc.requiresMounts,
    ⟨.ask (.isMounted mnt), false⟩ ∈ past

/-- The first service of the name in a configuration that has been read, if there is one. -/
def Looked (past : Past Op Op.Ans) (unit : String) (found : Option Service) : Prop :=
  ∃ cfg : Config, ⟨.config, cfg⟩ ∈ past ∧ cfg.services.find? (·.unit == unit) = found

/-- start-all counts a unit as failed, or not. -/
def Started (past : Past Op Op.Ans) (unit : String) : Bool → Prop
  | false => (∃ found, Looked past unit found ∧ ∀ svc ∈ found, Admitted past svc) ∧ Ended .start past unit true
  | true => (∃ svc, Looked past unit (some svc) ∧ Refused past svc) ∨ Ended .start past unit false

/-- A service is counted as stopped, or not. -/
def Verified (past : Past Op Op.Ans) (svc : Service) : Bool → Prop
  | false => svc.enabled = false ∨ ⟨.ask (.isActive svc.unit), false⟩ ∈ past ∨ Admitted past svc ∨
    Ended .stop past svc.unit false
  | true => svc.enabled = true ∧ ⟨.ask (.isActive svc.unit), true⟩ ∈ past ∧ Refused past svc ∧
    Ended .stop past svc.unit true

/-- An enabled service of this name has been seen active, and a mount of it missing. -/
def Grounds (services : List Service) (past : Past Op Op.Ans) (unit : String) : Prop :=
  ∃ svc ∈ services, svc.unit = unit ∧ svc.enabled = true ∧ ⟨.ask (.isActive unit), true⟩ ∈ past ∧ Refused past svc

/-- No client is run but one that stops a unit, with grounds. -/
def Spares (services : List Service) (past : Past Op Op.Ans) : Prop :=
  ∀ earlier verb unit ans, (⟨.spawn verb unit, ans⟩ :: earlier) <:+ past → verb = .stop ∧ Grounds services earlier unit

section Grows
variable (later : past <:+ past')
include later

theorem Ended.grows {verb : Verb} {well : Bool} (ended : Ended verb past unit well) : Ended verb past' unit well := by
  obtain ⟨exit, member, same⟩ := ended
  exact ⟨exit, later.subset member, same⟩

theorem Admitted.grows (admitted : Admitted past svc) : Admitted past' svc :=
  fun mnt member => later.subset (admitted mnt member)

theorem Refused.grows (refused : Refused past svc) : Refused past' svc := by
  obtain ⟨mnt, member, missing⟩ := refused
  exact ⟨mnt, member, later.subset missing⟩

theorem Looked.grows {found : Option Service} (looked : Looked past unit found) : Looked past' unit found := by
  obtain ⟨cfg, member, same⟩ := looked
  exact ⟨cfg, later.subset member, same⟩

theorem Started.grows {failed : Bool} (started : Started past unit failed) : Started past' unit failed := by
  cases failed with
  | false =>
    obtain ⟨⟨found, looked, admitted⟩, ended⟩ := started
    exact ⟨⟨found, looked.grows later, fun svc member => (admitted svc member).grows later⟩, ended.grows later⟩
  | true =>
    rcases started with ⟨svc, looked, refused⟩ | ended
    · exact .inl ⟨svc, looked.grows later, refused.grows later⟩
    · exact .inr (ended.grows later)

theorem Verified.grows {stopped : Bool} (verified : Verified past svc stopped) : Verified past' svc stopped := by
  cases stopped with
  | false =>
    rcases verified with disabled | inactive | admitted | ended
    · exact .inl disabled
    · exact .inr (.inl (later.subset inactive))
    · exact .inr (.inr (.inl (admitted.grows later)))
    · exact .inr (.inr (.inr (ended.grows later)))
  | true =>
    obtain ⟨enabled, active, refused, ended⟩ := verified
    exact ⟨enabled, later.subset active, refused.grows later, ended.grows later⟩

end Grows

theorem checkConstraints_path {r : Option String} (path : (checkConstraints svc).Path past r past') :
    if r.isSome then Refused past' svc else Admitted past' svc := by
  obtain ⟨all, found⟩ := path_firstSome path
  cases r with
  | none =>
    intro mnt member
    obtain ⟨start, stop, _, ⟨mounted, same, rfl⟩, later⟩ := all rfl mnt member
    cases mounted with
    | false => cases same
    | true => exact later.subset List.mem_cons_self
  | some error =>
    obtain ⟨mnt, member, start, stop, _, ⟨mounted, same, rfl⟩, later⟩ := found error rfl
    refine ⟨mnt, member, ?_⟩
    cases mounted with
    | false => exact later.subset List.mem_cons_self
    | true => cases same

theorem constraintsOf_path {r : Option String} (path : (constraintsOf unit).Path past r past') :
    if r.isSome then ∃ svc, Looked past' unit (some svc) ∧ Refused past' svc
    else ∃ found, Looked past' unit found ∧ ∀ svc ∈ found, Admitted past' svc := by
  obtain ⟨cfg, path⟩ := path
  dsimp only [Program.bind] at path
  split at path
  · rename_i missing
    obtain ⟨rfl, rfl⟩ := path
    exact ⟨none, ⟨cfg, List.mem_cons_self, missing⟩, fun _ member => absurd member (Option.not_mem_none _)⟩
  · rename_i svc found
    have looked : Looked past' unit (some svc) := ⟨cfg, path.suffix.subset List.mem_cons_self, found⟩
    have seen := checkConstraints_path path
    split at seen
    · rename_i unmet
      rw [if_pos unmet]
      exact ⟨svc, looked, seen⟩
    · rename_i met
      rw [if_neg met]
      refine ⟨some svc, looked, fun svc' member => ?_⟩
      cases member
      exact seen

theorem startUnit_ended {r : Option String} (path : (startUnit unit).Path past r past') :
    Ended .start past' unit r.isNone := by
  obtain ⟨_, _, _, exit, _, rfl, rfl⟩ := path
  exact ⟨exit, by simp, rfl⟩

theorem stopUnit_ended {r : Option String} (path : (stopUnit unit).Path past r past') :
    Ended .stop past' unit r.isNone := by
  obtain ⟨_, _, exit, path⟩ := path
  have later := Path.suffix (p := (if exit = .ok then clearFailed unit else pure ()) >>= fun _ => do
    unlockUnit unit
    mark (.stopUnit unit)
    return exit.error) path
  change Path ((if exit = .ok then clearFailed unit else pure ()) >>= _) _ _ _ at path
  obtain ⟨_, mid, cleared, _, _, rfl, rfl⟩ := path_bind.mp path
  exact ⟨exit, later.subset List.mem_cons_self, rfl⟩

/-! ### Clients -/

section Spares
variable {services : List Service}

theorem spares_cons {op : Op} {answer : op.Ans} (other : ∀ verb unit, op ≠ .spawn verb unit) :
    Spares services (⟨op, answer⟩ :: past) ↔ Spares services past := by
  refine forall₄_congr fun earlier verb unit ans => ?_
  rw [List.suffix_cons_iff]
  have not_ : (⟨.spawn verb unit, ans⟩ :: earlier : Past Op Op.Ans) ≠ ⟨op, answer⟩ :: past := by
    intro same
    cases same
    exact other verb unit rfl
  simp only [not_, false_or]

theorem Spares.stop (spares : Spares services past) (grounds : Grounds services past unit) (ans : Unit) :
    Spares services (⟨.spawn .stop unit, ans⟩ :: past) := by
  intro earlier verb unit' ans' within
  rcases List.suffix_cons_iff.mp within with same | within
  · cases same
    exact ⟨rfl, grounds⟩
  · exact spares earlier verb unit' ans' within

theorem checkConstraints_spares {r : Option String} (spares : Spares services past)
    (path : (checkConstraints svc).Path past r past') : Spares services past' := by
  refine path_firstSome_keeps _ (fun mnt r start stop spares pass => ?_) spares path
  obtain ⟨_, _, rfl⟩ := pass
  exact (spares_cons (by simp)).mpr spares

theorem clearFailed_spares (spares : Spares services past) (path : (clearFailed unit).Path past () past') :
    Spares services past' := by
  obtain ⟨state, path⟩ := path
  change Path (if state = "failed" then _ else _) _ _ _ at path
  split at path
  · obtain ⟨_, _, rfl⟩ := path
    exact (spares_cons (by simp)).mpr ((spares_cons (by simp)).mpr spares)
  · obtain ⟨_, rfl⟩ := path
    exact (spares_cons (by simp)).mpr spares

theorem stopUnit_spares {r : Option String} (spares : Spares services past) (grounds : Grounds services past unit)
    (path : (stopUnit unit).Path past r past') : Spares services past' := by
  obtain ⟨_, _, exit, path⟩ := path
  have stopping : Spares services (⟨.wait .stop unit, exit⟩ :: ⟨.spawn .stop unit, ()⟩ :: ⟨.lockUnit unit, ()⟩ ::
    past) := by
    refine (spares_cons (by simp)).mpr (Spares.stop ((spares_cons (by simp)).mpr spares) ?_ ())
    obtain ⟨svc, member, same, enabled, active, mnt, required, missing⟩ := grounds
    exact ⟨svc, member, same, enabled, List.mem_cons_of_mem _ active, mnt, required, List.mem_cons_of_mem _ missing⟩
  change Path ((if exit = .ok then clearFailed unit else pure ()) >>= _) _ _ _ at path
  obtain ⟨_, mid, cleared, _, _, _, rfl⟩ := path_bind.mp path
  refine (spares_cons (by simp)).mpr ((spares_cons (by simp)).mpr ?_)
  split at cleared
  · exact clearFailed_spares stopping cleared
  · obtain ⟨_, rfl⟩ := cleared
    exact stopping

theorem verifyService_spares {n res : Nat} (member : svc ∈ services) (spares : Spares services past)
    (path : (verifyService n svc).Path past res past') : Spares services past' := by
  unfold verifyService at path
  split at path
  · obtain ⟨_, rfl⟩ := path
    exact spares
  rename_i enabled
  obtain ⟨active, path⟩ := path
  dsimp only [Program.bind] at path
  have asked : Spares services (⟨.ask (.isActive svc.unit), active⟩ :: past) := (spares_cons (by simp)).mpr spares
  cases active with
  | false =>
    obtain ⟨_, rfl⟩ := path
    exact asked
  | true =>
    change Path (checkConstraints svc >>= _) _ _ _ at path
    obtain ⟨unmet, mid, checked, path⟩ := path_bind.mp path
    have seen := checkConstraints_path checked
    have spared := checkConstraints_spares asked checked
    cases unmet with
    | none =>
      obtain ⟨_, rfl⟩ := path
      exact spared
    | some error =>
      obtain ⟨_, last, stopped, _, rfl⟩ := path_bind.mp path
      refine stopUnit_spares spared ?_ stopped
      exact ⟨svc, member, rfl, by simpa using enabled, checked.suffix.subset List.mem_cons_self, seen⟩

end Spares

theorem startOne_path {n res : Nat} (path : (startOne n unit).Path past res past') :
    ∃ failed : Bool, res = n + failed.toNat ∧ Started past' unit failed ∧
      past'.countP fails = past.countP fails + failed.toNat := by
  obtain ⟨unmet, mid, checked, path⟩ := path_bind.mp path
  have seen := constraintsOf_path checked
  have counted := constraintsOf_counts unit checked
  cases unmet with
  | some error =>
    obtain ⟨rfl, rfl⟩ := path
    exact ⟨true, rfl, .inl seen, counted⟩
  | none =>
    obtain ⟨error, last, started, rfl, rfl⟩ := path_bind.mp path
    have ended := startUnit_ended started
    have counted' := startUnit_counts unit started
    rw [counted] at counted'
    obtain ⟨found, looked, admitted⟩ := seen
    cases error with
    | some error => exact ⟨true, rfl, .inr ended, counted'⟩
    | none =>
      exact ⟨false, rfl, ⟨⟨found, looked.grows started.suffix,
        fun svc member => (admitted svc member).grows started.suffix⟩, ended⟩,
        counted'⟩

theorem stopOne_path {n res : Nat} (path : (stopOne n unit).Path past res past') :
    ∃ failed : Bool, res = n + failed.toNat ∧ Ended .stop past' unit (!failed) ∧
      past'.countP fails = past.countP fails + failed.toNat := by
  obtain ⟨error, last, stopped, rfl, rfl⟩ := path_bind.mp path
  have ended := stopUnit_ended stopped
  have counted := stopUnit_counts unit stopped
  cases error with
  | some error => exact ⟨true, rfl, ended, counted⟩
  | none => exact ⟨false, rfl, ended, counted⟩

theorem verifyService_path {n res : Nat} (path : (verifyService n svc).Path past res past') :
    ∃ stopped : Bool, res = n + stopped.toNat ∧ Verified past' svc stopped := by
  unfold verifyService at path
  split at path
  · rename_i disabled
    obtain ⟨rfl, rfl⟩ := path
    exact ⟨false, rfl, .inl (by simpa using disabled)⟩
  rename_i enabled
  obtain ⟨active, path⟩ := path
  dsimp only [Program.bind] at path
  cases active with
  | false =>
    obtain ⟨rfl, rfl⟩ := path
    exact ⟨false, rfl, .inr (.inl List.mem_cons_self)⟩
  | true =>
    change Path (checkConstraints svc >>= _) _ _ _ at path
    have sawActive := path.suffix.subset (List.mem_cons_self (a := (⟨.ask (.isActive svc.unit), true⟩ : Act Op Op.Ans))
      (l := past))
    obtain ⟨unmet, mid, checked, path⟩ := path_bind.mp path
    have seen := checkConstraints_path checked
    cases unmet with
    | none =>
      obtain ⟨rfl, rfl⟩ := path
      exact ⟨false, rfl, .inr (.inr (.inl seen))⟩
    | some error =>
      obtain ⟨error', last, stopped, rfl, rfl⟩ := path_bind.mp path
      have ended := stopUnit_ended stopped
      have refused := Refused.grows stopped.suffix seen
      cases error' with
      | some error' => exact ⟨false, rfl, .inr (.inr (.inr ended))⟩
      | none => exact ⟨true, rfl, by simpa using enabled, sawActive, refused, ended⟩

/-- A counting loop over the units counts the failures among its answers. -/
theorem bulk_path {body : Nat → String → Prog Nat} {units : List String} {failed : Nat}
    {R : Past Op Op.Ans → String → Bool → Prop}
    (grows : ∀ {past past' unit failed}, past <:+ past' → R past unit failed → R past' unit failed)
    (one : ∀ {n unit past res past'}, (body n unit).Path past res past' →
      ∃ failed : Bool, res = n + failed.toNat ∧ R past' unit failed ∧ past'.countP fails = past.countP fails +
      failed.toNat)
    (calm : past.countP fails = 0) (path : (fold body 0 units).Path past failed past') :
    failed = past'.countP fails ∧ ∃ outs : List (String × Bool), outs.map Prod.fst = units ∧
    failed = outs.countP (·.2) ∧
      ∀ out ∈ outs, R past' out.1 out.2 := by
  constructor
  · refine path_fold (fun n past => n = past.countP fails) (fun n unit res start stop _ counted pass =>
      ?_) calm.symm path
    obtain ⟨failed, rfl, _, more⟩ := one pass
    rw [more, counted]
  · obtain ⟨outs, names, total, each⟩ := path_fold_count (R := fun unit failed _ stop => R stop unit failed)
      (fun n unit res start stop pass => by
        obtain ⟨failed, same, seen, _⟩ := one pass
        exact ⟨failed, same, seen⟩) path
    refine ⟨outs, names, by omega, fun out member => ?_⟩
    obtain ⟨start, stop, later, seen⟩ := each out member
    exact grows later seen

/-- start-all counts each enabled unit once: as failed one with a mount found missing or whose client failed, and no
other one. What it reports as failed is the number of failures among all answers that it got. -/
theorem startAll_totals {response : Response} (ran : handleStartAll.Path [] response past) :
    ∃ (cfg : Config) (outs : List (String × Bool)), past.getLast? = some ⟨.config, cfg⟩ ∧
    outs.map Prod.fst = enabledUnits cfg ∧
      (∀ out ∈ outs, Started past out.1 out.2) ∧ outs.countP (·.2) = past.countP fails ∧
      response = .totals (past.countP fails == 0) (enabledUnits cfg).length (past.countP fails) := by
  obtain ⟨cfg, _, path⟩ := ran
  change Path (fold startOne 0 (enabledUnits cfg) >>= _) _ _ _ at path
  have first := path.suffix
  obtain ⟨failed, mid, loop, rfl, rfl⟩ := path_bind.mp path
  obtain ⟨total, outs, names, same, each⟩ :=
    bulk_path (R := Started) (fun later seen => seen.grows later) startOne_path rfl loop
  refine ⟨cfg, outs, ?_, names, each, same ▸ total, by rw [total]⟩
  obtain ⟨new, rfl⟩ := first
  simp

/-- Three enabled services: the mount of the second is missing, and the client of the third fails. -/
theorem startAll_totals_some : ∃ past, handleStartAll.Path [] (.totals false 3 2) past ∧
    ∃ (cfg : Config) (outs : List (String × Bool)), past.getLast? = some ⟨.config, cfg⟩ ∧
    outs.map Prod.fst = enabledUnits cfg ∧
      (∀ out ∈ outs, Started past out.1 out.2) ∧ outs.countP (·.2) = past.countP fails ∧
      Response.totals false 3 2 = .totals (past.countP fails == 0) (enabledUnits cfg).length (past.countP fails) := by
  let cfg : Config := { services := [
    { unit := "a.service", enabled := true },
    { unit := "b.service", enabled := true, requiresMounts := ["/pool"] },
    { unit := "c.service", enabled := true }] }
  have ran : handleStartAll.Path [] (.totals false 3 2) _ :=
    ⟨cfg, (), cfg, (), (), (), .ok, (), cfg, false, cfg, (), (), (), .failed "exit status 1", (), rfl, rfl⟩
  exact ⟨_, ran, startAll_totals ran⟩

/-- stop-all likewise, by the clients alone. -/
theorem stopAll_totals {response : Response} (ran : handleStopAll.Path [] response past) :
    ∃ (cfg : Config) (outs : List (String × Bool)), past.getLast? = some ⟨.config, cfg⟩ ∧
    outs.map Prod.fst = enabledUnits cfg ∧
      (∀ out ∈ outs, Ended .stop past out.1 (!out.2)) ∧ outs.countP (·.2) = past.countP fails ∧
      response = .totals (past.countP fails == 0) (enabledUnits cfg).length (past.countP fails) := by
  obtain ⟨cfg, _, path⟩ := ran
  change Path (fold stopOne 0 (enabledUnits cfg) >>= _) _ _ _ at path
  have first := path.suffix
  obtain ⟨failed, mid, loop, rfl, rfl⟩ := path_bind.mp path
  obtain ⟨total, outs, names, same, each⟩ := bulk_path (R := fun past unit failed => Ended .stop past unit !failed)
    (fun later seen => seen.grows later) stopOne_path rfl loop
  refine ⟨cfg, outs, ?_, names, each, same ▸ total, by rw [total]⟩
  obtain ⟨new, rfl⟩ := first
  simp

/-- The verification deals with every service: a disabled one is left, one is seen inactive or with all its mounts, or
its client has run; counted are those that it has stopped. It runs no client but for an enabled service seen active
with a mount missing. -/
theorem verifyRunningServices_settles {count : Nat} (ran : verifyRunningServices.Path [] count past) :
    ∃ (cfg : Config) (outs : List (Service × Bool)), past.getLast? = some ⟨.config, cfg⟩ ∧
    outs.map Prod.fst = cfg.services ∧
      (∀ out ∈ outs, Verified past out.1 out.2) ∧ count = outs.countP (·.2) ∧ Spares cfg.services past := by
  obtain ⟨cfg, path⟩ := ran
  change Path (fold verifyService 0 cfg.services) _ _ _ at path
  obtain ⟨outs, names, total, each⟩ := path_fold_count (R := fun svc stopped _ stop => Verified stop svc stopped)
    (fun n svc res start stop pass => verifyService_path pass) path
  refine ⟨cfg, outs, ?_, names, fun out member => ?_, by omega, ?_⟩
  · obtain ⟨new, rfl⟩ := path.suffix
    simp
  · obtain ⟨start, stop, later, seen⟩ := each out member
    exact seen.grows later
  · refine path_fold (fun _ past => Spares cfg.services past) (fun n svc res start stop member spares pass =>
      ?_) ?_ path
    · exact verifyService_spares member spares pass
    · exact (spares_cons (by simp)).mpr fun _ _ _ _ within => absurd (List.suffix_nil.mp within) (List.cons_ne_nil _ _)

/-- An active service whose mount is missing is stopped. -/
theorem verifyRunningServices_settles_one : ∃ past, verifyRunningServices.Path [] 1 past ∧
    ∃ (cfg : Config) (outs : List (Service × Bool)), past.getLast? = some ⟨.config, cfg⟩ ∧
    outs.map Prod.fst = cfg.services ∧
      (∀ out ∈ outs, Verified past out.1 out.2) ∧ 1 = outs.countP (·.2) ∧ Spares cfg.services past := by
  let cfg : Config := { services := [{ unit := "a.service", enabled := true, requiresMounts := ["/pool"] }] }
  have ran : verifyRunningServices.Path [] 1 _ := ⟨cfg, true, false, (), (), .ok, "inactive", (), (), rfl, rfl⟩
  exact ⟨_, ran, verifyRunningServices_settles ran⟩

end Bulk
end HomelabDaemon
