import HomelabDaemon.System

/-!
# Runs without requests

Boot, the monitor and its restarts among themselves. They read the configuration and the
user-stopped flags and change neither.
-/

namespace HomelabDaemon
open Concurrency Program

namespace Background

/-- Changes neither the configuration nor a flag, and calls in no backup. -/
def keeps : Op → Prop
  | .updateConfig _ | .setUserStopped _ _ | .setAllUserStopped _ _ | .goRunBackup _ => False
  | _ => True

/-- No request and no backup arrives. -/
def Undisturbed : Step → Prop
  | .arrive _ => False
  | _ => True

theorem code_keeps {who : Actor} (h : who.background = true) : who.code.Uses keeps := by
  cases who with
  | boot =>
    refine startup_built.within.mono fun op member => ?_
    cases op <;> first | trivial | (rcases member with member | member <;> exact member)
  | monitor ticks =>
    refine (monitorLoop_uses ticks _).mono fun op member => ?_
    cases op <;> trivial
  | restart svc =>
    refine Uses.bind ((restart_built svc).within.mono fun op member => ?_) fun _ => .perform trivial
    cases op <;> first | trivial | (rcases member with member | member <;> exact member)
  | api request | backup unit => cases h

theorem effect_keeps (w : World) {op : Op} (ans : op.Ans) (h : keeps op) :
    (w.effect op ans).cfg = w.cfg ∧ (w.effect op ans).userStopped = w.userStopped := by
  cases op with
  | updateConfig | setUserStopped | setAllUserStopped | goRunBackup => exact h.elim
  | spawn verb unit => cases verb <;> exact ⟨rfl, rfl⟩
  | createTemp | writeTemp | renameTemp | removeTemp => cases ans <;> exact ⟨rfl, rfl⟩
  | _ => exact ⟨rfl, rfl⟩

/-- Only background actors, and the world as they found it. -/
structure Quiet (w : World) (c : Configuration) : Prop where
  pool : ∀ (i : Nat) th, c.pool[i]? = some th → th.who.background = true
  cfg : c.world.cfg = w.cfg
  userStopped : c.world.userStopped = w.userStopped

section Run
variable {ok : Story → Configuration → Step → Prop} {w : World} {ticks : Nat} {hist : Story} {c c' : Configuration}

theorem run_uses {actors : List Actor} (run : daemon.Run ok (daemon.init w actors) hist c) {i : Nat}
    {th : Thread Op Op.Ans Actor} (found : c.pool[i]? = some th) (background : th.who.background = true) :
    th.code.Uses keeps := by
  refine run.threads (fun who p => who.background = true → p.Uses keeps) (fun _ => code_keeps) ?_ found background
  intro who op k ans uses inside
  exact (uses inside).2 ans

theorem run_quiet (undisturbed : ∀ hist c e, ok hist c e → Undisturbed e)
    (run : daemon.Run ok (daemon.init w [.boot, .monitor ticks]) hist c) : Quiet w c := by
  induction run with
  | start =>
    refine ⟨fun i th found => ?_, rfl, rfl⟩
    obtain ⟨who, member, rfl⟩ := List.mem_map.mp (List.mem_of_getElem? found)
    rcases List.mem_cons.mp member with rfl | member
    · rfl
    · obtain rfl := List.mem_singleton.mp member
      rfl
  | @step hist c c' e before met next ih =>
    have step := next
    cases next with
    | @act i who op k ans at_ permitted =>
      have uses := run_uses before at_ (ih.pool i _ at_)
      obtain ⟨cfg, stops⟩ := effect_keeps c.world ans uses.1
      refine ⟨fun j th found => ?_, cfg.trans ih.cfg, stops.trans ih.userStopped⟩
      rcases step.origin found with ⟨old, _⟩ | ⟨_, _, _, old, _, _⟩ | ⟨_, _, starts⟩
      · exact ih.pool j th old
      · have background := ih.pool j _ old
        exact background
      · cases op with
        | goRestart svc =>
          rw [List.mem_singleton.mp starts]
          rfl
        | goRunBackup unit => exact uses.1.elim
        | _ => cases starts
    | @env move permitted =>
      have same : (c.world.envEffect move).cfg = c.world.cfg ∧
          (c.world.envEffect move).userStopped = c.world.userStopped := by
        cases move <;> exact ⟨rfl, rfl⟩
      exact ⟨ih.pool, same.1.trans ih.cfg, same.2.trans ih.userStopped⟩
    | arrive arrives => exact (undisturbed _ _ _ met).elim

end Run

end Background
end HomelabDaemon
