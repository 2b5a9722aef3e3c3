import HomelabDaemon.Host

/-!
# What a merge wrote stays

as long as a reload comes between the merge and the next PATCH. Without one the PATCH writes what
the daemon had in memory before the merge.
-/

namespace HomelabDaemon
open Concurrency Program Machine Yaml

namespace LostUpdate
open PatchAtomic PatchFrame RoundTrip

/-- A configuration that can be saved, with all that is owed. -/
structure Fresh (o : Owed) (cfg : Config) : Prop where
  plain : cfg.Plain
  valid : ∀ s ∈ cfg.services, s.Valid
  has : Has cfg o

/-- The entries are still in their places. -/
structure Current (o : Owed) (services backups : List String) (cfg : Config) : Prop where
  fresh : Fresh o cfg
  services : cfg.services.map (·.unit) = services
  backups : cfg.backups.map (·.unit) = backups

def ReloadSees (o : Owed) : (op : Op) → op.Ans → Prop
  | .ask .loadConfig, .ok cfg => Fresh o cfg
  | _, _ => True

def ReloadSpoils (o : Owed) : Op → Prop
  | .updateConfig f => ¬ ∀ cfg, Fresh o (f cfg)
  | .createTemp | .writeTemp _ _ | .renameTemp _ | .removeTemp _ => True
  | _ => False

def PatchSees (o : Owed) (services backups : List String) : (op : Op) → op.Ans → Prop
  | .config, cfg => Current o services backups cfg
  | _, _ => True

def PatchSpoils (o : Owed) (services backups : List String) : Op → Prop
  | .updateConfig f => ¬ ∀ cfg, Current o services backups cfg → Current o services backups (f cfg)
  | .writeTemp _ data => ¬ ∃ cfg, Fresh o cfg ∧ data = render cfg
  | _ => False

section Code
variable {o : Owed} {services backups : List String} {patch : Patch}

theorem reload_quiet : ¬ (Actor.api .reload).code.Reaches (ReloadSees o) (ReloadSpoils o) := by
  have away : ∀ {α : Type} {p : Prog α}, p.Uses Op.elsewhere → ¬ p.Reaches (ReloadSees o) (ReloadSpoils o) := by
    intro α p uses
    refine uses.not_reaches fun op away spoils => ?_
    cases op <;> first | exact away | exact spoils
  intro h
  rcases (reaches_bind _ _).mp h with h | ⟨_, _, h⟩
  · rcases handleReload_reaches h with h | ⟨cfg, fresh, h⟩ | h | h | h
    · exact h
    · exact h fun _ => fresh
    · exact away reloadScheduler_elsewhere h
    · refine away (built_elsewhere verifyRunningServices_built fun op looks => ?_) h
      cases op <;> trivial
    · exact h
  · exact h

/-- The index that was looked up is that of the unit. -/
theorem named_of_findIdx? {α : Type} {unit : α → String} {xs : List α} {u : String} {idx : Nat}
    (found : xs.findIdx? (unit · == u) = some idx) : (xs.map unit)[idx]? = some u := by
  obtain ⟨bound, here, _⟩ := List.findIdx?_eq_some_iff_getElem.mp found
  rw [List.getElem?_map, List.getElem?_eq_getElem bound]
  exact congrArg some (eq_of_beq here)

theorem patch_quiet (payload : PlainPayload patch) :
    ¬ (Actor.api patch.request).code.Reaches (PatchSees (o.without patch.request) services backups)
      (PatchSpoils (o.without patch.request) services backups) := by
  have writes : ¬ writeConfig.Reaches (PatchSees (o.without patch.request) services backups)
      (PatchSpoils (o.without patch.request) services backups) := by
    intro h
    rcases writeConfig_reaches h with h | h | ⟨cfg, file, op, current, _, temp, spoils⟩
    · exact h
    · exact h
    · cases op with
      | writeTemp f data =>
        obtain ⟨_, rfl⟩ := temp
        exact spoils ⟨cfg, current.fresh, rfl⟩
      | _ => first | exact temp | exact spoils
  intro h
  rcases (reaches_bind _ _).mp h with h | ⟨_, _, h⟩
  · cases patch with
    | config name body =>
      rcases handlePatchConfig_reaches h with h | ⟨p, idx, f, rfl, sets, ⟨cfg, current, found⟩, spoils⟩ | h | h | h
      · exact h
      · refine spoils fun cfg' current' => ⟨⟨?_, ?_, ?_⟩, ?_, current'.backups⟩
        · exact modifyService_plain sets payload current'.fresh.plain
        · exact modify_forall current'.fresh.valid fun _ => sets_valid sets
        · refine has_modifyService sets ?_ current'.fresh.has
          rw [current'.services, ← current.services]
          exact named_of_findIdx? found
        · rw [← current'.services]
          refine map_modify (fun s => ?_) cfg'.services idx
          cases sets <;> rfl
      · exact h
      · exact h
      · exact writes h
    | backup name body =>
      rcases handlePatchBackup_reaches h with h | ⟨p, idx, f, rfl, sets, ⟨cfg, current, found⟩, spoils⟩ | h | h
      · exact h
      · refine spoils fun cfg' current' => ⟨⟨?_, current'.fresh.valid, ?_⟩, current'.services, ?_⟩
        · exact modifyBackup_plain sets payload current'.fresh.plain
        · refine has_modifyBackup sets ?_ current'.fresh.has
          rw [current'.backups, ← current.backups]
          exact named_of_findIdx? found
        · rw [← current'.backups]
          refine map_modify (fun b => ?_) cfg'.backups idx
          cases sets <;> rfl
      · refine reloadScheduler_elsewhere.not_reaches (fun op away spoils => ?_) h
        cases op <;> first | exact away | exact spoils
      · exact writes h
    | storage body =>
      rcases handlePatchStorage_reaches h with ⟨p, rfl, spoils⟩ | h
      · refine spoils fun cfg current =>
          ⟨⟨?_, current.fresh.valid, ⟨current.fresh.has.services, current.fresh.has.backups⟩⟩,
          current.services, current.backups⟩
        exact ⟨payload, current.fresh.plain.services, current.fresh.plain.backups⟩
      · exact writes h
  · exact h

/-! ### A file is renamed after it was written -/

/-- What the thread has written to each of its temporary files. -/
def written : Past Op Op.Ans → Nat → Option Text
  | [], _ => none
  | ⟨.createTemp, .ok file⟩ :: past, i => if i = file then none else written past i
  | ⟨.writeTemp file data, none⟩ :: past, i => if i = file then some data else written past i
  | ⟨.renameTemp file, none⟩ :: past, i => if i = file then none else written past i
  | ⟨.removeTemp file, none⟩ :: past, i => if i = file then none else written past i
  | _ :: past, i => written past i

def renames : Contract Op Op.Ans where
  allow past
    | .renameTemp file => (written past file).isSome = true
    | _ => True

def noRename : Op → Prop
  | .renameTemp _ => False
  | _ => True

theorem noRename_renames {α : Type} {p : Prog α} (h : p.Uses noRename) (past : Past Op Op.Ans) :
    p.Meets renames past fun _ _ => True := by
  refine h.meets (fun _ => True) (fun past op other _ => ?_) (fun _ _ _ _ _ _ => trivial) trivial
  cases op <;> trivial

theorem bind_renames {α β : Type} {p : Prog α} {f : α → Prog β} {past : Past Op Op.Ans}
    (first : p.Meets renames past fun _ _ => True) (next : ∀ a past, (f a).Meets renames past fun _ _ => True) :
    (p >>= f).Meets renames past fun _ _ => True := by
  rw [meets_bind]
  exact first.mono fun a past' _ => next a past'

theorem perform_renames (op : Op) (other : noRename op) (past : Past Op Op.Ans) :
    (perform op).Meets renames past fun _ _ => True :=
  noRename_renames (.perform other) past

theorem writeConfig_renames (past : Past Op Op.Ans) : writeConfig.Meets renames past fun _ _ => True := by
  have cleaned : ∀ (file : Nat) (error : String) past, (cleanup file error).Meets renames past fun _ _ => True :=
    fun file error => noRename_renames (.bind (.perform trivial) fun _ => .bind (.perform trivial) fun _ => .done _)
  refine ⟨trivial, fun cfg _ => ⟨trivial, fun created _ => ?_⟩⟩
  cases created with
  | error error => trivial
  | ok file =>
    refine ⟨trivial, fun error _ => ?_⟩
    cases error with
    | some error => exact cleaned file error _
    | none =>
      refine ⟨trivial, fun synced _ => ?_⟩
      cases synced with
      | some error => exact cleaned file error _
      | none =>
        refine ⟨trivial, fun closed _ => ?_⟩
        cases closed with
        | some error => trivial
        | none =>
          refine ⟨trivial, fun chmodded _ => ?_⟩
          cases chmodded with
          | some error => exact cleaned file error _
          | none =>
            refine ⟨?_, fun _ _ => trivial⟩
            show (written _ file).isSome = true
            simp [written]

theorem save_renames {answer : Prog Response} (h : answer.Uses noRename) (past : Past Op Op.Ans) :
    (save answer).Meets renames past fun _ _ => True := by
  refine bind_renames (writeConfig_renames past) fun error past => ?_
  split
  · trivial
  · exact noRename_renames h past

theorem assign_renames {α : Type} {value : Option α} {set : α → Prog Unit} (h : ∀ v, (set v).Uses noRename)
    (past : Past Op Op.Ans) : (assign value set).Meets renames past fun _ _ => True := by
  cases value with
  | none => trivial
  | some v => exact noRename_renames (h v) past

theorem elsewhere_noRename {α : Type} {p : Prog α} (h : p.Uses Op.elsewhere) : p.Uses noRename := by
  refine h.mono fun op away => ?_
  cases op <;> trivial

theorem reload_noRename : (Actor.api .reload).code.Uses noRename := by
  refine .bind (.bind (.perform trivial) fun loaded => ?_) fun _ => .done _
  cases loaded with
  | error e => exact .done _
  | ok cfg =>
    refine .bind (.perform trivial) fun _ => .bind (elsewhere_noRename reloadScheduler_elsewhere) fun _ =>
      .bind (elsewhere_noRename (built_elsewhere verifyRunningServices_built fun op looks => ?_)) fun _ =>
      .bind (.perform trivial) fun _ => .done _
    cases op <;> trivial

theorem patch_renames (patch : Patch) : (Actor.api patch.request).code.Meets renames [] fun _ _ => True := by
  refine bind_renames ?_ fun _ _ => trivial
  cases patch with
  | config name body =>
    cases body with
    | none => trivial
    | some p =>
      refine bind_renames (perform_renames .config trivial []) fun cfg past => ?_
      split
      · trivial
      · rename_i idx _
        refine bind_renames (assign_renames (fun enabled => ?_) past) fun _ past => ?_
        · refine .bind (.perform trivial) fun _ => ?_
          split
          · exact .bind (.perform trivial) fun _ => .perform trivial
          · exact .done _
        refine bind_renames (assign_renames (fun _ => .perform trivial) past) fun _ past => ?_
        refine bind_renames (assign_renames (fun _ => .perform trivial) past) fun _ past => ?_
        refine bind_renames (assign_renames (fun _ => .perform trivial) past) fun _ past => ?_
        split
        · refine bind_renames (assign_renames (fun _ => .perform trivial) past) fun _ past => ?_
          refine bind_renames (assign_renames (fun _ => .perform trivial) past) fun _ past => ?_
          refine save_renames ?_ past
          exact .bind (.perform trivial) fun _ => .done _
        · trivial
  | backup name body =>
    cases body with
    | none => trivial
    | some p =>
      refine bind_renames (perform_renames .config trivial []) fun cfg past => ?_
      split
      · trivial
      · rename_i idx _
        refine bind_renames (assign_renames (fun _ => .perform trivial) past) fun _ past => ?_
        refine bind_renames (assign_renames (fun _ => .perform trivial) past) fun _ past => ?_
        refine bind_renames (assign_renames (fun _ => .perform trivial) past) fun _ past => ?_
        refine bind_renames (assign_renames (fun _ => .perform trivial) past) fun _ past => ?_
        refine bind_renames (assign_renames (fun _ => .perform trivial) past) fun _ past => ?_
        refine save_renames ?_ past
        exact .bind (elsewhere_noRename reloadScheduler_elsewhere) fun _ => .bind (.perform trivial) fun _ => .done _
  | storage body =>
    cases body with
    | none => trivial
    | some p =>
      refine bind_renames (perform_renames (.updateConfig _) trivial []) fun _ past => ?_
      refine bind_renames (writeConfig_renames past) fun error _ => ?_
      cases error <;> trivial

end Code

/-! ### What a run keeps -/

/-- Every reload in progress takes over what is owed; no PATCH is in progress. -/
def Calm (o : Owed) (c : Place) : Prop :=
  ∀ {j : Nat} {th : Thread Op Op.Ans Actor}, c.pool[j]? = some th → th.who.changes = true →
    Finished th ∨ th.who = .api .reload ∧ ¬ th.code.Reaches (ReloadSees o) (ReloadSpoils o)

/-- The PATCH at `i` is in progress, and it alone. Memory and its temporary files have what is owed
when it succeeds. -/
structure Patching (o : Owed) (hist : Chronicle) (c : Place) (i : Nat) (patch : Patch)
    (services backups : List String) :
    Prop where
  code : ∃ code, c.pool[i]? = some ⟨.api patch.request, code⟩ ∧
    ¬ code.Reaches (PatchSees o services backups) (PatchSpoils o services backups) ∧
    code.Meets renames (past i hist) fun _ _ => True
  others : ∀ {j : Nat} {th : Thread Op Op.Ans Actor}, j ≠ i → c.pool[j]? = some th → th.who.changes = true → Finished th
  current : Current o services backups c.world.world.cfg
  files : ∀ file data, written (past i hist) file = some data →
    c.world.world.temps file = some data ∧ ∃ cfg, Fresh o cfg ∧ data = render cfg

structure Kept (S : Setup) (hist : Chronicle) (c : Place) (o : Owed) : Prop where
  unlinked : Unlinked o.wrote
  file : ∃ cfg, S.load (.ok c.world.world.file) = .ok cfg ∧ Fresh o cfg
  memory : synced hist = true → Fresh o c.world.world.cfg
  pool : Calm o c ∨ ∃ i patch services backups, Patching (o.without patch.request) hist c i patch services backups

section Step
variable {S : Setup} {hist : Chronicle} {c c' : Place} {e : Happening} {o : Owed}

theorem effect_elsewhere (w : World) {op : Op} (ans : op.Ans) (away : op.elsewhere) :
    (w.effect op ans).cfg = w.cfg ∧ (w.effect op ans).file = w.file ∧ (w.effect op ans).temps = w.temps := by
  cases op with
  | spawn verb unit => cases verb <;> exact ⟨rfl, rfl, rfl⟩
  | updateConfig | createTemp | writeTemp | renameTemp | removeTemp => exact away.elim
  | _ => exact ⟨rfl, rfl, rfl⟩

theorem owed_act {i : Nat} {who : Actor} {op : Op} {ans : op.Ans} (other : noRename op) :
    owed (.act i who op ans :: hist) = owed hist := by
  cases op with
  | renameTemp file => exact other.elim
  | _ => cases who <;> rfl

theorem synced_act {i : Nat} {who : Actor} {op : Op} {ans : op.Ans} (other : noRename op)
    (keeps : ∀ f, op ≠ .updateConfig f) :
    synced (.act i who op ans :: hist) = synced hist := by
  cases op with
  | renameTemp file => exact other.elim
  | updateConfig f => exact absurd rfl (keeps f)
  | _ =>
    cases who with
    | api request => cases request <;> rfl
    | _ => rfl

theorem written_act {op : Op} {ans : op.Ans} {past : Past Op Op.Ans} (away : op.elsewhere) :
    written (⟨op, ans⟩ :: past) = written past := by
  cases op with
  | updateConfig | createTemp | writeTemp | renameTemp | removeTemp => exact away.elim
  | _ => rfl

theorem calm_of_quiet (quiet : Quiet c) : Calm o c :=
  fun found changes => .inl (quiet _ (List.mem_of_getElem? found) changes)

theorem not_finished {who : Actor} {op : Op} {k : op.Ans → Prog Unit} : ¬ Finished ⟨who, .call op k⟩ := nofun

theorem changes_forks {op : Op} {who : Actor} (forked : who ∈ forks op) : who.changes = false := by
  cases op with
  | goRestart svc | goRunBackup unit =>
    obtain rfl := List.mem_singleton.mp forked
    rfl
  | _ => cases forked

/-- A thread that may change the configuration was there, has acted or has just arrived. -/
theorem origin_changes (next : (host S).Step c e c') {j : Nat} {th : Thread Op Op.Ans Actor}
    (found : c'.pool[j]? = some th) (changes : th.who.changes = true) :
    (c.pool[j]? = some th ∧ past j [e] = []) ∨
    (∃ op k ans, c.pool[j]? = some ⟨th.who, .call op k⟩ ∧ e = .act j th.who op ans ∧ th.code = k ans) ∨
    e = .arrive th.who ∧ c.pool.length ≤ j ∧ th = (host S).spawn th.who := by
  rcases next.origin found with old | acted | ⟨outside, fresh, starts⟩
  · exact .inl old
  · exact .inr (.inl acted)
  · cases e with
    | act i who op ans =>
      rw [changes_forks starts] at changes
      cases changes
    | env move => exact starts.elim
    | arrive who => exact .inr (.inr ⟨congrArg Event.arrive starts.1, outside, fresh⟩)

/-- A step of somebody else. -/
def Bystander : Happening → Prop
  | .act _ who _ _ => who.changes = false
  | .env _ => True
  | .arrive who => who.changes = false

theorem bystander_keeps (bystander : Bystander e) (next : (host S).Step c e c') {j : Nat} {th : Thread Op Op.Ans Actor}
    (found : c'.pool[j]? = some th) (changes : th.who.changes = true) : c.pool[j]? = some th ∧ past j [e] = [] := by
  rcases origin_changes next found changes with old | ⟨_, _, _, _, rfl, _⟩ | ⟨rfl, _⟩
  · exact old
  · have other : th.who.changes = false := bystander
    rw [other] at changes
    cases changes
  · have other : th.who.changes = false := bystander
    rw [other] at changes
    cases changes

theorem patch_changes (patch : Patch) : (Actor.api patch.request).changes = true := by
  cases patch <;> rfl

theorem kept_bystander (kept : Kept S hist c o) (next : (host S).Step c e c') (bystander : Bystander e)
    (cfg : c'.world.world.cfg = c.world.world.cfg) (file : c'.world.world.file = c.world.world.file)
    (temps : c'.world.world.temps = c.world.world.temps) (still : synced (e :: hist) = synced hist) :
    Kept S (e :: hist) c' o := by
  refine ⟨kept.unlinked, ?_, ?_, ?_⟩
  · rw [file]
    exact kept.file
  · rw [cfg, still]
    exact kept.memory
  · rcases kept.pool with calm | ⟨i, patch, services, backups, patching⟩
    · refine .inl fun found changes => ?_
      exact calm (bystander_keeps bystander next found changes).1 changes
    · refine .inr ⟨i, patch, services, backups, ?_, fun ne found changes => ?_, ?_, ?_⟩
      · obtain ⟨code, at_, quiet, meets⟩ := patching.code
        obtain ⟨code', found⟩ := next.keeps at_
        obtain ⟨old, own⟩ := bystander_keeps bystander next found (patch_changes patch)
        have same : code' = code := congrArg Thread.code (Option.some.inj (old.symm.trans at_))
        rw [past_cons, own, List.nil_append]
        exact ⟨code', found, same ▸ quiet, same ▸ meets⟩
      · exact patching.others ne (bystander_keeps bystander next found changes).1 changes
      · rw [cfg]
        exact patching.current
      · obtain ⟨code, at_, _⟩ := patching.code
        obtain ⟨code', found⟩ := next.keeps at_
        rw [past_cons, (bystander_keeps bystander next found (patch_changes patch)).2, List.nil_append, temps]
        exact patching.files

theorem origin_act {i : Nat} {who : Actor} {op : Op} {ans : op.Ans} {k : op.Ans → Prog Unit}
    (next : (host S).Step c (.act i who op ans) c') (at_ : c.pool[i]? = some ⟨who, .call op k⟩) {j : Nat}
    {th : Thread Op Op.Ans Actor} (found : c'.pool[j]? = some th) (changes : th.who.changes = true) :
    (c.pool[j]? = some th ∧ j ≠ i) ∨ j = i ∧ th = ⟨who, k ans⟩ := by
  rcases origin_changes next found changes with ⟨old, own⟩ | ⟨op', k', ans', at', same, code⟩ | arrived
  · refine .inl ⟨old, fun same => ?_⟩
    rw [same] at own
    simp at own
  · obtain ⟨rfl, rfl, rfl, heq⟩ := Event.act.inj same
    obtain rfl := eq_of_heq heq
    rw [at_] at at'
    obtain ⟨_, codes⟩ := Thread.mk.inj (Option.some.inj at')
    obtain ⟨_, conts⟩ := Program.call.inj codes
    obtain rfl := eq_of_heq conts
    refine .inr ⟨rfl, ?_⟩
    rw [← code]
  · cases arrived.1

/-- A reload in progress takes over the file, with all that is owed. -/
theorem kept_reload {i : Nat} {op : Op} {ans : op.Ans} (kept : Kept S hist c o)
    (next : (host S).Step c (.act i (.api .reload) op ans) c') :
    Kept S (.act i (.api .reload) op ans :: hist) c' o := by
  have step := next
  cases next with
  | @act _ _ _ k _ at_ permitted =>
    have calm : Calm o c := by
      rcases kept.pool with calm | ⟨i', patch, services, backups, patching⟩
      · exact calm
      · by_cases same : i = i'
        · subst same
          obtain ⟨code, here, _⟩ := patching.code
          rw [at_] at here
          have who := congrArg Thread.who (Option.some.inj here)
          cases patch <;> cases who
        · exact (not_finished (patching.others same at_ rfl)).elim
    have quiet : ¬ (call op k).Reaches (ReloadSees o) (ReloadSpoils o) := by
      rcases calm at_ rfl with finished | ⟨_, quiet⟩
      · exact (not_finished finished).elim
      · exact quiet
    obtain ⟨read, loads, fresh⟩ := kept.file
    have sees : ReloadSees o op ans := by
      cases op with
      | ask q =>
        cases q with
        | loadConfig =>
          cases ans with
          | error e => trivial
          | ok cfg =>
            rcases Bool.or_eq_true_iff.mp permitted with answer | failed
            · have loaded : .ok cfg = S.load (.ok c.world.world.file) := of_decide_eq_true answer
              rw [loads] at loaded
              obtain rfl := Except.ok.inj loaded
              exact fresh
            · cases failed
        | _ => trivial
      | _ => trivial
    have stays : ¬ ReloadSpoils o op := fun spoils => quiet (.inl spoils)
    have pool : Calm o ⟨c.world.effect op ans, c.pool.set i ⟨.api .reload, k ans⟩ ++
      (forks op).map (host S).spawn⟩ := by
      intro j th found changes
      rcases origin_act step at_ found changes with ⟨old, _⟩ | ⟨_, rfl⟩
      · exact calm old changes
      · exact .inr ⟨rfl, fun reaches => quiet (.inr ⟨ans, sees, reaches⟩)⟩
    by_cases away : op.elsewhere
    · obtain ⟨cfg, file, _⟩ := effect_elsewhere c.world.world ans away
      refine ⟨kept.unlinked, ?_, ?_, .inl pool⟩
      · show ∃ cfg, S.load (.ok (c.world.world.effect op ans).file) = .ok cfg ∧ Fresh o cfg
        rw [file]
        exact kept.file
      · show _ → Fresh o (c.world.world.effect op ans).cfg
        rw [cfg, synced_act (by cases op <;> trivial) fun f same => by rw [same] at away; exact away]
        exact kept.memory
    · cases op with
      | updateConfig f =>
        have taken : ∀ cfg, Fresh o (f cfg) := Classical.not_not.mp stays
        exact ⟨kept.unlinked, kept.file, fun _ => taken c.world.world.cfg, .inl pool⟩
      | createTemp | writeTemp | renameTemp | removeTemp => exact (stays trivial).elim
      | _ => exact (away trivial).elim

theorem request_inj {patch patch' : Patch} (same : patch.request = patch'.request) : patch = patch' := by
  cases patch <;> cases patch' <;> cases same <;> rfl

/-- A PATCH that acts is the one in progress. -/
theorem patching_of_act {i : Nat} {op : Op} {k : op.Ans → Prog Unit} {patch : Patch} (kept : Kept S hist c o)
    (at_ : c.pool[i]? = some ⟨.api patch.request, .call op k⟩) :
    ∃ services backups, Patching (o.without patch.request) hist c i patch services backups := by
  rcases kept.pool with calm | ⟨i', patch', services, backups, patching⟩
  · rcases calm at_ (patch_changes patch) with finished | ⟨who, _⟩
    · exact (not_finished finished).elim
    · cases patch <;> cases who
  · by_cases same : i = i'
    · subst same
      obtain ⟨code, here, _⟩ := patching.code
      rw [at_] at here
      have who := congrArg Thread.who (Option.some.inj here)
      obtain rfl := request_inj (Actor.api.inj who)
      exact ⟨services, backups, patching⟩
    · exact (not_finished (patching.others same at_ (patch_changes patch))).elim

theorem patching_act {i : Nat} {op : Op} {ans : op.Ans} {k : op.Ans → Prog Unit} {patch : Patch}
    {services backups : List String}
    (patching : Patching o hist c i patch services backups)
    (next : (host S).Step c (.act i (.api patch.request) op ans) c')
    (at_ : c.pool[i]? = some ⟨.api patch.request, .call op k⟩) (sees : PatchSees o services backups op ans)
    (current : Current o services backups c'.world.world.cfg)
    (files : ∀ file data, written (⟨op, ans⟩ :: past i hist) file = some data →
      c'.world.world.temps file = some data ∧ ∃ cfg, Fresh o cfg ∧ data = render cfg) :
    Patching o (.act i (.api patch.request) op ans :: hist) c' i patch services backups := by
  obtain ⟨code, here, quiet, meets⟩ := patching.code
  rw [at_] at here
  obtain ⟨_, rfl⟩ := Thread.mk.inj (Option.some.inj here)
  refine ⟨?_, fun ne found changes => ?_, current, ?_⟩
  · obtain ⟨code', found⟩ := next.keeps at_
    rcases origin_act next at_ found (patch_changes patch) with ⟨_, ne⟩ | ⟨_, same⟩
    · exact (ne rfl).elim
    · obtain ⟨_, rfl⟩ := Thread.mk.inj same
      rw [past_act]
      exact ⟨_, found, fun reaches => quiet (.inr ⟨ans, sees, reaches⟩), meets.2 ans trivial⟩
  · rcases origin_act next at_ found changes with ⟨old, _⟩ | ⟨same, _⟩
    · exact patching.others ne old changes
    · exact (ne same).elim
  · rw [past_act]
    exact files

/-- What it has written stays in its temporary files, as long as no operation on them succeeds. -/
theorem files_update {past : Past Op Op.Ans} {file : Nat} {temps temps' : Nat → Option Text} {now : Option Text}
    (files : ∀ i data, written past i = some data → temps i = some data ∧ ∃ cfg, Fresh o cfg ∧ data = render cfg)
    (elsewhere : ∀ i, i ≠ file → temps' i = temps i)
    (here : ∀ data, now = some data → temps' file = some data ∧ ∃ cfg, Fresh o cfg ∧ data = render cfg) :
    ∀ i data, (if i = file then now else written past i) = some data →
      temps' i = some data ∧ ∃ cfg, Fresh o cfg ∧ data = render cfg := by
  intro i data at_
  by_cases same : i = file
  · rw [if_pos same] at at_
    rw [same]
    exact here data at_
  · rw [if_neg same] at at_
    rw [elsewhere i same]
    exact files i data at_

/-- What it is about to do spoils nothing, and what it reads is up to date. -/
theorem patch_acts {i : Nat} {op : Op} {ans : op.Ans} {k : op.Ans → Prog Unit} {patch : Patch} (kept : Kept S hist c o)
    (at_ : c.pool[i]? = some ⟨.api patch.request, .call op k⟩) (permitted : c.world.permits S op ans = true) :
    ∃ services backups, Patching (o.without patch.request) hist c i patch services backups ∧
      ¬ PatchSpoils (o.without patch.request) services backups op ∧
      PatchSees (o.without patch.request) services backups op ans ∧ renames.allow (past i hist) op := by
  obtain ⟨services, backups, patching⟩ := patching_of_act kept at_
  obtain ⟨code, here, quiet, meets⟩ := patching.code
  rw [at_] at here
  obtain ⟨_, rfl⟩ := Thread.mk.inj (Option.some.inj here)
  refine ⟨services, backups, patching, fun spoils => quiet (.inl spoils), ?_, meets.1⟩
  cases op with
  | config =>
    have read : ans = c.world.world.cfg := of_decide_eq_true permitted
    rw [read]
    exact patching.current
  | _ => trivial

/-- An operation that changes temporary files at most. -/
theorem kept_patch_still {i : Nat} {op : Op} {ans : op.Ans} {patch : Patch} (kept : ∀ o ∈ owed hist, Kept S hist c o)
    (next : (host S).Step c (.act i (.api patch.request) op ans) c')
    (same : owed (.act i (.api patch.request) op ans :: hist) = owed hist)
    (still : synced (.act i (.api patch.request) op ans :: hist) = synced hist)
    (cfg : (c.world.world.effect op ans).cfg = c.world.world.cfg)
    (file : (c.world.world.effect op ans).file = c.world.world.file)
    (files : ∀ {o services backups}, ¬ PatchSpoils o services backups op →
      (∀ file data, written (past i hist) file = some data →
        c.world.world.temps file = some data ∧ ∃ cfg, Fresh o cfg ∧ data = render cfg) →
      ∀ file data, written (⟨op, ans⟩ :: past i hist) file = some data →
        (c.world.world.effect op ans).temps file = some data ∧ ∃ cfg, Fresh o cfg ∧ data = render cfg) :
    ∀ o ∈ owed (.act i (.api patch.request) op ans :: hist),
    Kept S (.act i (.api patch.request) op ans :: hist) c' o := by
  intro o owes
  rw [same] at owes
  have kept := kept o owes
  have step := next
  cases next with
  | @act _ _ _ k _ at_ permitted =>
    obtain ⟨services, backups, patching, stays, sees, _⟩ := patch_acts kept at_ permitted
    refine ⟨kept.unlinked, ?_, ?_, .inr ⟨i, patch, services, backups, ?_⟩⟩
    · show ∃ cfg, S.load (.ok (c.world.world.effect op ans).file) = .ok cfg ∧ Fresh o cfg
      rw [file]
      exact kept.file
    · show _ → Fresh o (c.world.world.effect op ans).cfg
      rw [cfg, still]
      exact kept.memory
    · refine patching_act patching step at_ sees ?_ (files stays patching.files)
      show Current _ _ _ (c.world.world.effect op ans).cfg
      rw [cfg]
      exact patching.current

theorem kept_patch_elsewhere {i : Nat} {op : Op} {ans : op.Ans} {patch : Patch}
    (kept : ∀ o ∈ owed hist, Kept S hist c o)
    (next : (host S).Step c (.act i (.api patch.request) op ans) c') (away : op.elsewhere) :
    ∀ o ∈ owed (.act i (.api patch.request) op ans :: hist),
    Kept S (.act i (.api patch.request) op ans :: hist) c' o := by
  obtain ⟨cfg, file, temps⟩ := effect_elsewhere c.world.world ans away
  have other : noRename op := by cases op <;> trivial
  have keeps : ∀ f, op ≠ .updateConfig f := by
    rintro f rfl
    exact away
  refine kept_patch_still kept next (owed_act other) (synced_act other keeps) cfg file fun _ files => ?_
  rw [temps, written_act away]
  exact files

theorem kept_plain {cfg : Config} (plain : cfg.Plain) : cfg.kept.Plain where
  pools := by
    intro p member
    obtain ⟨q, inside, rfl⟩ := List.mem_map.mp member
    exact ⟨(plain.pools q inside).uuid, (plain.pools q inside).mountpoint, (plain.pools q inside).options⟩
  services := by
    intro s member
    obtain ⟨t, inside, rfl⟩ := List.mem_map.mp member
    have before := plain.services t inside
    exact { before with restart := .inr (restart_isText before.restart) }
  backups := plain.backups

theorem fresh_kept {cfg : Config} (unlinked : Unlinked o.wrote) (fresh : Fresh o cfg) : Fresh o cfg.kept :=
  ⟨kept_plain fresh.plain, kept_valid fresh.valid, has_kept unlinked fresh.has⟩

/-- The PATCH succeeds: its file loads with what is still owed. -/
theorem kept_patch_renames {i file : Nat} {patch : Patch} (reads : ReadsPlain S.unmarshal)
    (kept : ∀ o ∈ owed hist, Kept S hist c o)
    (next : (host S).Step c (.act i (.api patch.request) (.renameTemp file) none) c') :
    ∀ o ∈ owed (.act i (.api patch.request) (.renameTemp file) none :: hist),
      Kept S (.act i (.api patch.request) (.renameTemp file) none :: hist) c' o := by
  intro o' owes
  obtain ⟨o, before, rfl⟩ := Option.map_eq_some_iff.mp owes
  have kept := kept o before
  have step := next
  cases next with
  | @act _ _ _ k _ at_ permitted =>
    obtain ⟨services, backups, patching, _, sees, allowed⟩ := patch_acts kept at_ permitted
    obtain ⟨data, wrote⟩ := Option.isSome_iff_exists.mp allowed
    obtain ⟨content, cfg, fresh, rfl⟩ := patching.files file data wrote
    have unlinked : Unlinked (o.without patch.request).wrote := by
      rw [without_wrote]
      exact kept.unlinked
    refine ⟨unlinked, ⟨cfg.kept, ?_, fresh_kept unlinked fresh⟩, fun _ => patching.current.fresh,
      .inr ⟨i, patch, services, backups, ?_⟩⟩
    · show S.load (.ok ((c.world.world.temps file).getD [])) = .ok cfg.kept
      rw [content]
      exact load_render reads fresh.plain fresh.valid
    · rw [without_without]
      exact patching_act patching step at_ sees patching.current
        (files_update patching.files (fun j ne => Function.update_of_ne ne _ _) nofun)

theorem kept_patch {i : Nat} {op : Op} {ans : op.Ans} {patch : Patch} (reads : ReadsPlain S.unmarshal)
    (kept : ∀ o ∈ owed hist, Kept S hist c o) (next : (host S).Step c (.act i (.api patch.request) op ans) c') :
    ∀ o ∈ owed (.act i (.api patch.request) op ans :: hist),
    Kept S (.act i (.api patch.request) op ans :: hist) c' o := by
  cases op with
  | updateConfig f =>
    intro o owes
    rw [owed_act (show noRename (.updateConfig f) from trivial)] at owes
    have kept := kept o owes
    have step := next
    cases next with
    | @act _ _ _ k _ at_ permitted =>
      obtain ⟨services, backups, patching, stays, sees, _⟩ := patch_acts kept at_ permitted
      have keeps : ∀ cfg, Current (o.without patch.request) services backups cfg →
          Current (o.without patch.request) services backups (f cfg) := Classical.not_not.mp stays
      have current := keeps _ patching.current
      refine ⟨kept.unlinked, kept.file, fun still => ?_, .inr ⟨i, patch, services, backups, ?_⟩⟩
      · have sets : setsDependencies patch.request = false := by
          cases patch with
          | config name body | backup name body =>
            obtain ⟨sets, _⟩ := Bool.and_eq_true_iff.mp still
            simpa using sets
          | storage body => rfl
        rw [without_of_keeps sets] at current
        exact current.fresh
      · exact patching_act patching step at_ sees current patching.files
  | createTemp =>
    refine kept_patch_still kept next (owed_act trivial) (synced_act trivial nofun) (by cases ans <;> rfl)
      (by cases ans <;> rfl)
      fun _ files => ?_
    cases ans with
    | error e => exact files
    | ok file => exact files_update files (fun j ne => Function.update_of_ne ne _ _) nofun
  | writeTemp file data =>
    refine kept_patch_still kept next (owed_act trivial) (synced_act trivial nofun) (by cases ans <;> rfl)
      (by cases ans <;> rfl)
      fun stays files => ?_
    cases ans with
    | some e => exact files
    | none =>
      refine files_update files (fun j ne => Function.update_of_ne ne _ _) fun d same => ?_
      obtain rfl := Option.some.inj same
      exact ⟨Function.update_self _ _ _, Classical.not_not.mp stays⟩
  | renameTemp file =>
    cases ans with
    | some e => exact kept_patch_still kept next rfl (by cases patch <;> rfl) rfl rfl fun _ files => files
    | none => exact kept_patch_renames reads kept next
  | removeTemp file =>
    refine kept_patch_still kept next (owed_act trivial) (synced_act trivial nofun) (by cases ans <;> rfl)
      (by cases ans <;> rfl)
      fun _ files => ?_
    cases ans with
    | some e => exact files
    | none => exact files_update files (fun j ne => Function.update_of_ne ne _ _) nofun
  | _ => exact kept_patch_elsewhere kept next trivial

theorem kept_arrive_reload (kept : Kept S hist c o) (next : (host S).Step c (.arrive (.api .reload)) c')
    (quiet : Quiet c) :
    Kept S (.arrive (.api .reload) :: hist) c' o := by
  have step := next
  cases next
  refine ⟨kept.unlinked, kept.file, kept.memory, .inl fun found changes => ?_⟩
  rcases origin_changes step found changes with ⟨old, _⟩ | ⟨_, _, _, _, same, _⟩ | ⟨same, _, fresh⟩
  · exact .inl (quiet _ (List.mem_of_getElem? old) changes)
  · cases same
  · refine .inr ⟨(Event.arrive.inj same).symm, ?_⟩
    rw [fresh, ← Event.arrive.inj same]
    exact reload_quiet

theorem kept_arrive_patch {patch : Patch} (kept : Kept S hist c o)
    (next : (host S).Step c (.arrive (.api patch.request)) c')
    (quiet : Quiet c) (ready : synced hist = true) (payload : PlainPayload patch) (new : past c.pool.length hist = []) :
    Kept S (.arrive (.api patch.request) :: hist) c' o := by
  have step := next
  cases next
  have memory := kept.memory ready
  refine ⟨kept.unlinked, kept.file, fun _ => memory,
    .inr ⟨c.pool.length, patch, c.world.world.cfg.services.map (·.unit),
    c.world.world.cfg.backups.map (·.unit), ⟨(Actor.api patch.request).code, ?_, patch_quiet payload, ?_⟩,
      fun ne found changes => ?_,
    ⟨⟨memory.plain, memory.valid, has_without memory.has⟩, rfl, rfl⟩, ?_⟩⟩
  · simp [host, Machine.spawn]
  · rw [past_arrive, new]
    exact patch_renames patch
  · rcases origin_changes step found changes with ⟨old, _⟩ | ⟨_, _, _, _, same, _⟩ | ⟨_, outside, _⟩
    · exact quiet _ (List.mem_of_getElem? old) changes
    · cases same
    · have inside := (List.getElem?_eq_some_iff.mp found).1
      simp only [List.length_append, List.length_singleton] at inside
      exact absurd (Nat.le_antisymm (Nat.le_of_lt_succ inside) outside) ne
  · rw [past_arrive, new]
    exact fun file data at_ => by cases at_

theorem kept_rename {run : Nat} {cfg : Config} (merging : Merging S c.world)
    (readsBack : S.unmarshal (saveText S.marshal cfg) = .ok cfg)
    (next : (host S).Step c (.env (.rename run cfg none)) c') (quiet : Quiet c) :
    Kept S (.env (.rename run cfg none) :: hist) c' { wrote := cfg } := by
  have step := next
  cases next with
  | env permitted =>
    have at_ : c.world.merges run = .wrote cfg := of_decide_eq_true (Bool.and_eq_true_iff.mp permitted).1
    obtain ⟨clean, valid⟩ := merging.clean run cfg (.inr at_)
    refine ⟨clean.unlinked, ⟨cfg, ?_, clean.plain, valid, has_wrote cfg⟩, (fun ready => by cases ready), .inl ?_⟩
    · show S.load (.ok (c.world.tmp.getD [])) = .ok cfg
      rw [merging.content run cfg at_]
      exact load_ok readsBack valid
    · exact calm_of_quiet quiet

end Step

section Run
variable {S : Setup} {w : World} {tmp : Option Text} {ticks : Nat} {hist : Chronicle} {c : Place}

theorem others_elsewhere {ok : Chronicle → Place → Happening → Prop}
    (run : (host S).Run ok (begun S w tmp ticks) hist c)
    {i : Nat} {th : Thread Op Op.Ans Actor} (found : c.pool[i]? = some th) (other : th.who.changes = false) :
    th.code.Uses Op.elsewhere := by
  refine run.threads (fun who p => who.changes = false → p.Uses Op.elsewhere) (fun _ => code_elsewhere) ?_ found other
  intro who op k ans uses changes
  exact (uses changes).2 ans

theorem reloads_noRename {ok : Chronicle → Place → Happening → Prop}
    (run : (host S).Run ok (begun S w tmp ticks) hist c)
    {i : Nat} {th : Thread Op Op.Ans Actor} (found : c.pool[i]? = some th) (reload : th.who = .api .reload) :
    th.code.Uses noRename := by
  refine run.threads (fun who p => who = .api .reload → p.Uses noRename) (fun who => ?_) ?_ found reload
  · rintro rfl
    exact reload_noRename
  · intro who op k ans uses reload
    exact (uses reload).2 ans

theorem changes_request {who : Actor} (changes : who.changes = true) : who = .api .reload ∨ ∃ patch :
    Patch, who = .api patch.request := by
  cases who with
  | api request =>
    cases request with
    | reload => exact .inl rfl
    | patchConfig name body => exact .inr ⟨.config name body, rfl⟩
    | patchBackup name body => exact .inr ⟨.backup name body, rfl⟩
    | patchStorage body => exact .inr ⟨.storage body, rfl⟩
    | start | stop | restart | startAll | stopAll | runBackup | unmount => cases changes
  | boot | monitor | restart | backup => cases changes

theorem run_merging (run : (host S).Run (Orderly S) (begun S w tmp ticks) hist c) : Merging S c.world := by
  induction run with
  | start =>
    refine ⟨fun run other busy => ?_, fun run cfg at_ => ?_, fun run cfg at_ => ?_⟩
    · cases busy
    · rcases at_ with at_ | at_ <;> cases at_
    · cases at_
  | step before met next ih =>
    cases next with
    | act at_ permitted => exact ⟨ih.one, ih.clean, ih.content⟩
    | env permitted => exact envEffect_merging ih permitted met
    | arrive arrives => exact ih

theorem run_kept (reads : ReadsPlain S.unmarshal)
    (run : (host S).Run (Orderly S) (begun S w tmp ticks) hist c) :
    (∀ id cfg, Event.env (.rename id cfg none) ∈ hist → S.unmarshal (saveText S.marshal cfg) = .ok cfg) →
    ∀ o ∈ owed hist, Kept S hist c o := by
  induction run with
  | start => exact fun _ o owes => by cases owes
  | @step hist c c' e before met next ih =>
    intro readsBack
    have kept := ih fun id cfg member => readsBack id cfg (List.mem_cons_of_mem e member)
    have step := next
    cases next with
    | @act i who op k ans at_ permitted =>
      cases changes : who.changes with
      | false =>
        have away : op.elsewhere := (others_elsewhere before at_ changes).1
        have other : noRename op := by cases op <;> trivial
        have keeps : ∀ f, op ≠ .updateConfig f := by
          rintro f rfl
          exact away
        obtain ⟨cfg, file, temps⟩ := effect_elsewhere c.world.world ans away
        intro o owes
        rw [owed_act other] at owes
        exact kept_bystander (kept o owes) step changes cfg file temps (synced_act other keeps)
      | true =>
        rcases changes_request changes with rfl | ⟨patch, rfl⟩
        · intro o owes
          rw [owed_act (reloads_noRename before at_ rfl).1] at owes
          exact kept_reload (kept o owes) step
        · exact kept_patch reads kept step
    | @env move permitted =>
      cases move with
      | daemon move =>
        exact fun o owes => kept_bystander (kept o owes) step trivial (by cases move <;> rfl) (by cases move <;> rfl)
          (by cases move <;> rfl) rfl
      | load run error defaults => exact fun o owes => kept_bystander (kept o owes) step trivial rfl rfl rfl rfl
      | write run cfg left =>
        exact fun o owes => kept_bystander (kept o owes) step trivial (by cases left <;> rfl) (by cases left <;> rfl)
          (by cases left <;> rfl) rfl
      | rename run cfg error =>
        cases error with
        | some message => exact fun o owes => kept_bystander (kept o owes) step trivial rfl rfl rfl rfl
        | none =>
          intro o owes
          obtain rfl := Option.some.inj owes
          exact kept_rename (run_merging before) (readsBack run cfg List.mem_cons_self) step met
    | @arrive who arrives =>
      intro o owes
      cases changes : who.changes with
      | false => exact kept_bystander (kept o owes) step changes rfl rfl rfl rfl
      | true =>
        rcases changes_request changes with rfl | ⟨patch, rfl⟩
        · exact kept_arrive_reload (kept o owes) step (met rfl).1
        · obtain ⟨quiet, each⟩ := met (patch_changes patch)
          obtain ⟨ready, payload⟩ := each patch rfl
          exact kept_arrive_patch (kept o owes) step quiet ready payload (before.past_outside (Nat.le_refl _))

/-- Nothing that a merge wrote is lost, as long as a reload comes between it and the next PATCH. -/
theorem run_keeps (reads : ReadsPlain S.unmarshal)
    (readsBack : ∀ id cfg, Event.env (.rename id cfg none) ∈ hist → S.unmarshal (saveText S.marshal cfg) = .ok cfg)
    (run : (host S).Run (Orderly S) (begun S w tmp ticks) hist c) : Keeps S hist c := by
  intro o owes
  obtain ⟨cfg, loads, fresh⟩ := (run_kept reads run readsBack o owes).file
  exact ⟨cfg, loads, fresh.has⟩

end Run

/-! ### Schedules -/

/-- The defaults have one service more. -/
def defaults : Config :=
  { covered with services := covered.services ++ [{ unit := "c.service", enabled := true, order := 20, restart := "no" }] }

def mergedCfg : Config := (merged covered defaults).1

def merge : List (Machine.Move Actor Outer Outside) :=
  [.env (.load 0 none (.ok (render defaults))), .env (.write 0 mergedCfg none), .env (.rename 0 mergedCfg none)]

def isFinished (th : Thread Op Op.Ans Actor) : Bool :=
  match th.code with
  | .done _ => true
  | .call _ _ => false

def isQuiet (c : Place) : Bool := c.pool.all fun th => !th.who.changes || isFinished th

/-- The merge at the start, a reload and a PATCH of no pools. -/
def orderly (hist : Chronicle) (c : Place) : Happening → Bool
  | .env (.load _ none (.ok text)) => hist.isEmpty && decide (text = render defaults)
  | .env (.load _ _ _) => false
  | .env (.rename _ cfg none) => decide (cfg = mergedCfg) && isQuiet c
  | .arrive (.api .reload) => isQuiet c
  | .arrive (.api (.patchStorage body)) => isQuiet c && synced hist && decide (body = some ⟨[]⟩)
  | .arrive (.api request) => !request.changes
  | _ => true

theorem quiet_of_isQuiet {c : Place} (h : isQuiet c = true) : Quiet c := by
  intro th member changes
  have each := List.all_eq_true.mp h th member
  rw [changes, Bool.not_true, Bool.false_or] at each
  unfold isFinished at each
  split at each
  · assumption
  · cases each

theorem defaults_valid : ∀ s ∈ defaults.services, s.Valid :=
  checkServices_eq_none.mp (show checkServices 0 defaults.services = none by decide)

theorem defaults_plain : defaults.Plain where
  pools p member := nomatch member
  services s member := by
    rcases List.mem_append.mp member with member | member
    · exact covered_plain.services s member
    · obtain rfl := List.mem_singleton.mp member
      exact { unit := by decide, order := by decide, bootDelay := by decide, dependsOn := by decide,
              requiresMounts := by decide,
              restart := by decide, restartDelay := by decide }
  backups := covered_plain.backups

theorem render_clean {cfg existing : Config} {path : String} (plain : cfg.Plain) (valid : ∀ s ∈ cfg.services, s.Valid)
    (loads : loadConfig library.unmarshal path (.ok (render cfg)) = .ok existing) : Clean existing := by
  rw [load_render library_reads plain valid] at loads
  obtain rfl := Except.ok.inj loads
  refine ⟨kept_plain plain, fun s member => ?_⟩
  obtain ⟨t, _, rfl⟩ := List.mem_map.mp member
  exact ⟨rfl, rfl⟩

theorem orderly_orderly {hist : Chronicle} {c : Place} {e : Happening}
    (run : (host library).Run (fun h c e => orderly h c e = true) (begun library world none 1) hist c)
    (met : orderly hist c e = true) : Orderly library hist c e := by
  cases e with
  | act => trivial
  | env move =>
    cases move with
    | daemon | write => trivial
    | load run' error text =>
      cases error with
      | some message => cases met
      | none =>
        cases text with
        | error e => cases met
        | ok text =>
          obtain ⟨first, same⟩ := Bool.and_eq_true_iff.mp met
          obtain rfl : text = render defaults := of_decide_eq_true same
          obtain rfl := List.isEmpty_iff.mp first
          cases run
          exact ⟨fun _ => rfl, fun _ existing loads => render_clean covered_plain covered_valid loads,
            fun default loads => render_clean defaults_plain defaults_valid loads⟩
    | rename run' cfg error =>
      cases error with
      | some message => trivial
      | none => exact quiet_of_isQuiet (Bool.and_eq_true_iff.mp met).2
  | arrive who =>
    cases who with
    | api request =>
      intro changes
      cases request with
      | reload =>
        refine ⟨quiet_of_isQuiet met, fun patch same => ?_⟩
        cases patch <;> cases same
      | patchStorage body =>
        obtain ⟨both, same⟩ := Bool.and_eq_true_iff.mp met
        obtain ⟨quiet, ready⟩ := Bool.and_eq_true_iff.mp both
        obtain rfl : body = some ⟨[]⟩ := of_decide_eq_true same
        refine ⟨quiet_of_isQuiet quiet, fun patch same => ⟨ready, ?_⟩⟩
        cases patch with
        | storage body =>
          cases same
          exact fun p member => nomatch member
        | config | backup => cases same
      | patchConfig | patchBackup => cases met
      | start | stop | restart | startAll | stopAll | runBackup | unmount => cases changes
    | _ => trivial

/-- A comment is no plain line. -/
theorem header_unread (t : Text) : Yaml.read (header ++ t) = none := by
  obtain ⟨line, unread, unbroken, first⟩ : ∃ line, Yaml.lexLine false 0 line = none ∧ '\n' ∉ line ∧
      "# homelab-daemon — service orchestration config\n".toList = line ++ ['\n'] :=
    ⟨"# homelab-daemon — service orchestration config".toList, by decide +kernel, by decide +kernel, by decide +kernel⟩
  have regroup : ∀ a b c d e : Text, a ++ b ++ c ++ d ++ e = a ++ (b ++ c ++ d ++ e) := by
    intro a b c d e
    simp only [List.append_assoc]
  obtain ⟨rest, parts⟩ : ∃ rest, header = "# homelab-daemon — service orchestration config\n".toList ++ rest :=
    ⟨_, regroup _ _ _ _ _⟩
  rw [parts, first, List.append_assoc, List.append_assoc, List.singleton_append, Yaml.read, Yaml.lex,
    List.splitOn_append_cons_of_beq line _ (beq_self_eq_true '\n'), List.splitOn_eq_singleton unbroken,
    List.singleton_append, Yaml.lexLines, unread]
  rfl

theorem mergedCfg_eq : mergedCfg = { defaults with version := mergedCfg.version } := by decide +kernel

theorem mergedCfg_plain : mergedCfg.Plain := by
  rw [mergedCfg_eq]
  exact { defaults_plain with }

theorem mergedCfg_readsBack : library.unmarshal (saveText library.marshal mergedCfg) = .ok mergedCfg := by
  have own : mergedCfg.kept = mergedCfg := by decide +kernel
  have reads := plainOnly_reads _ _ _ (read_render mergedCfg_plain) (decodeConfig_entries mergedCfg_plain)
  have fails : plainOnly (header ++ render mergedCfg) = .error "yaml: not plain" := by
    rw [plainOnly, header_unread]
    rfl
  have starts : header.isPrefixOf (header ++ render mergedCfg) = true :=
    List.isPrefixOf_iff_prefix.mpr (List.prefix_append _ _)
  rw [saveText, library]
  dsimp only
  rw [fails]
  dsimp only
  rw [if_pos starts, List.drop_left, reads, own]

/-- After a reload the PATCH saves what was merged. -/
theorem run_keeps_reloaded : ∃ hist c, c.world.world.file = render mergedCfg ∧ synced hist = true ∧
    (owed hist).isSome = true ∧
    (host library).Run (Orderly library) (begun library world none 1) hist c ∧ Keeps library hist c := by
  obtain ⟨hist, c, run, shown⟩ := host_schedule orderly world
    (merge ++ [.arrive (.api .reload), .go 2 {} 12, .arrive (.api (.patchStorage (some ⟨[]⟩))), .go 3 {} 8])
    (fun s => decide (s.2.world.world.file = render mergedCfg) && synced s.1 && (owed s.1).isSome) (by decide +kernel)
  obtain ⟨both, owes⟩ := Bool.and_eq_true_iff.mp shown
  obtain ⟨file, ready⟩ := Bool.and_eq_true_iff.mp both
  have ordered := run.reinforce fun before met => orderly_orderly before met
  refine ⟨hist, c, of_decide_eq_true file, ready, owes, ordered,
    run_keeps library_reads (fun id cfg member => ?_) ordered⟩
  obtain ⟨_, _, _, met⟩ := run.met member
  obtain rfl : cfg = mergedCfg := of_decide_eq_true (Bool.and_eq_true_iff.mp met).1
  exact mergedCfg_readsBack

/-- The service is in the file no more. -/
def lost (s : Chronicle × Place) : Bool :=
  match owed s.1, library.load (.ok s.2.world.world.file) with
  | some o, .ok cfg => o.wrote.services.any fun s => !cfg.services.any (·.unit == s.unit)
  | _, _ => false

theorem not_keeps_of_lost {hist : Chronicle} {c : Place} (shown : lost (hist, c) = true) : ¬ Keeps library hist c := by
  intro keeps
  unfold lost at shown
  split at shown
  · rename_i o cfg owes loads
    obtain ⟨cfg', loads', has⟩ := keeps o owes
    rw [loads'] at loads
    obtain rfl := Except.ok.inj loads
    obtain ⟨s, member, missing⟩ := List.any_eq_true.mp shown
    obtain ⟨s', inside, same, _⟩ := has.services s member
    have there : cfg'.services.any (·.unit == s.unit) = true := List.any_eq_true.mpr ⟨s', inside, by simp [same.unit]⟩
    rw [there] at missing
    cases missing
  · cases shown

def mergesOnce (_ : Chronicle) (_ : Place) : Happening → Bool
  | .env (.rename _ cfg none) => decide (cfg = mergedCfg)
  | _ => true

/-- Without the reload the PATCH writes what the daemon had in memory before the merge. -/
theorem merge_lost : ¬ ∀ (S : Setup) (w : World) (tmp : Option Text) (ticks : Nat) (hist : Chronicle) (c : Place),
    ReadsPlain S.unmarshal →
    (∀ id cfg, Event.env (.rename id cfg none) ∈ hist → S.unmarshal (saveText S.marshal cfg) = .ok cfg) →
    (host S).Run Machine.anyStep (begun S w tmp ticks) hist c → Keeps S hist c := by
  intro claim
  obtain ⟨hist, c, run, shown⟩ := host_schedule mergesOnce world
    (merge ++ [.arrive (.api (.patchStorage (some ⟨[]⟩))), .go 2 {} 8]) lost (by decide +kernel)
  refine not_keeps_of_lost shown (claim library world none 1 hist c library_reads (fun id cfg member => ?_)
    (run.weaken fun _ _ _ _ => trivial))
  obtain ⟨_, _, _, met⟩ := run.met member
  obtain rfl : cfg = mergedCfg := of_decide_eq_true met
  exact mergedCfg_readsBack

end LostUpdate
end HomelabDaemon
