import HomelabDaemon.Patch
import HomelabDaemon.Vpn

/-!
# Atomic writers

Both writers of files rename a temporary file over their target: `writeConfig`, which cleans up in a deferred
function, and `PublishPort`, which removes its file at each failure.
-/

namespace HomelabDaemon.AtomicWriters
open Concurrency Program Machine Strings Vpn

/-- The target of a writer and the temporary files next to it. -/
structure Directory where
  target : Option Text := none
  temps : Nat → Option Text := fun _ => none

/-- The calls that may fail. -/
inductive Call where
  | mkdirAll | create | write | sync | close | chmod | rename | remove
  deriving DecidableEq

/-- All or nothing, and no temporary file more than before. -/
structure Directory.Clean (before : Directory) (content : Text) (failed : Bool) (after : Directory) : Prop where
  target : after.target = if failed then before.target else some content
  temps : after.temps = before.temps

/-- The temporary files while the one of a call is there, too. -/
def Adds (temps : Nat → Option Text) (file : Nat) (now : Nat → Option Text) : Prop :=
  temps file = none ∧ ∃ text, now = Function.update temps file (some text)

namespace Adds
variable {temps now : Nat → Option Text} {file : Nat}

theorem removed (adds : Adds temps file now) : Function.update now file none = temps := by
  obtain ⟨free, text, rfl⟩ := adds
  rw [Function.update_idem, Function.update_eq_self_iff]
  exact free.symm

theorem left (adds : Adds temps file now) : now ≠ temps := by
  obtain ⟨free, text, rfl⟩ := adds
  intro same
  have kept := congrFun same file
  rw [Function.update_self, free] at kept
  cases kept

end Adds

inductive PublishOp where
  | mkdirAll
  | createTemp
  | writeString (file : Nat) (s : Str)
  | close (file : Nat)
  | rename (file : Nat)
  | remove (file : Nat)

@[reducible] def PublishOp.Ans : PublishOp → Type
  | createTemp => Except String Nat
  | _ => Option String

/-- `PublishPort`; an error names the call that failed. -/
def publishPort (port : Int) : Program PublishOp PublishOp.Ans (Except PublishError Unit) := do
  let made ← perform PublishOp.mkdirAll
  match made with
  | some error => return .error (.call .mkdirAll error)
  | none => do
    let created ← perform PublishOp.createTemp
    match created with
    | .error error => return .error (.call .createTemp error)
    | .ok file => do
      let written ← perform (PublishOp.writeString file (itoa port))
      match written with
      | some error => do
        let _ ← perform (PublishOp.close file)
        let _ ← perform (PublishOp.remove file)
        return .error (.call .writeString error)
      | none => do
        let closed ← perform (PublishOp.close file)
        match closed with
        | some error => do
          let _ ← perform (PublishOp.remove file)
          return .error (.call .close error)
        | none => do
          let renamed ← perform (PublishOp.rename file)
          match renamed with
          | some error => do
            let _ ← perform (PublishOp.remove file)
            return .error (.call .rename error)
          | none => return .ok ()

namespace Directory

def permits (d : Directory) : (op : PublishOp) → op.Ans → Bool
  | .createTemp, .ok file => decide (d.temps file = none)
  | _, _ => true

def effect (d : Directory) : (op : PublishOp) → op.Ans → Directory
  | .createTemp, .ok file => { d with temps := Function.update d.temps file (some []) }
  | .writeString file s, none => { d with temps := Function.update d.temps file (some s) }
  | .rename file, none => { target := d.temps file, temps := Function.update d.temps file none }
  | .remove file, none => { d with temps := Function.update d.temps file none }
  | _, _ => d

end Directory

/-- Publications of ports, in the directory of the port file. -/
def publishing : Machine PublishOp PublishOp.Ans Directory Int Empty where
  permits := Directory.permits
  effect := Directory.effect
  code port := publishPort port >>= fun _ => return ()
  forks _ := []
  arrives _ := true
  envPermits _ := Empty.elim
  envEffect _ := Empty.elim

/-- The call of an operation, if it failed. -/
def failedCall : Act PublishOp PublishOp.Ans → Option Call
  | ⟨.mkdirAll, some _⟩ => some .mkdirAll
  | ⟨.createTemp, .error _⟩ => some .create
  | ⟨.writeString _ _, some _⟩ => some .write
  | ⟨.close _, some _⟩ => some .close
  | ⟨.rename _, some _⟩ => some .rename
  | ⟨.remove _, some _⟩ => some .remove
  | _ => none

section Publish
variable {d d' : Directory} {port : Int} {trace : List (Act PublishOp PublishOp.Ans)}
  {result : Except PublishError Unit}

/-- The last lines of a branch that fails. -/
theorem remove_ends {mid : Directory} {file : Nat} {error : PublishError} (adds : Adds d.temps file mid.temps)
    (alone : publishing.Alone (perform (PublishOp.remove file) >>= fun _ => return .error error) mid trace result d') :
    result = .error error ∧ d'.target = mid.target ∧
    (d'.temps = d.temps ↔ Call.remove ∉ trace.filterMap failedCall) := by
  obtain ⟨removed, _, rfl, _, rfl, rfl, rfl⟩ := alone
  refine ⟨rfl, ?_⟩
  cases removed with
  | none => exact ⟨rfl, iff_of_true adds.removed (by simp [failedCall])⟩
  | some message => exact ⟨rfl, iff_of_false adds.left (by simp [failedCall])⟩

/-- Whichever call fails, the removal decides. -/
theorem publishPort_ends (alone : publishing.Alone (publishPort port) d trace result d') :
    d'.target = (if !result.isOk then d.target else some (itoa port)) ∧
      (d'.temps = d.temps ↔ Call.remove ∉ trace.filterMap failedCall) := by
  obtain ⟨made, _, rfl, _, alone⟩ := alone
  cases made with
  | some error =>
    obtain ⟨rfl, rfl, rfl⟩ := alone
    exact ⟨rfl, iff_of_true rfl (by simp [failedCall])⟩
  | none =>
  obtain ⟨created, _, rfl, permitted, alone⟩ := alone
  cases created with
  | error error =>
    obtain ⟨rfl, rfl, rfl⟩ := alone
    exact ⟨rfl, iff_of_true rfl (by simp [failedCall])⟩
  | ok file =>
  have free : d.temps file = none := of_decide_eq_true permitted
  obtain ⟨written, _, rfl, _, alone⟩ := alone
  cases written with
  | some error =>
    have adds : Adds d.temps file (Function.update d.temps file (some [])) := ⟨free, [], rfl⟩
    obtain ⟨closed, _, rfl, _, alone⟩ := alone
    obtain ⟨rfl, target, removed⟩ := remove_ends adds alone
    exact ⟨target, removed.trans (by cases closed <;> simp [failedCall])⟩
  | none =>
  have adds : Adds d.temps file (Function.update (Function.update d.temps file (some [])) file (some (itoa port))) :=
    ⟨free, itoa port, Function.update_idem ..⟩
  obtain ⟨closed, _, rfl, _, alone⟩ := alone
  cases closed with
  | some error =>
    obtain ⟨rfl, target, removed⟩ := remove_ends adds alone
    exact ⟨target, removed.trans (by simp [failedCall])⟩
  | none =>
  obtain ⟨renamed, _, rfl, _, alone⟩ := alone
  cases renamed with
  | some error =>
    obtain ⟨rfl, target, removed⟩ := remove_ends adds alone
    exact ⟨target, removed.trans (by simp [failedCall])⟩
  | none =>
    obtain ⟨rfl, rfl, rfl⟩ := alone
    exact ⟨Function.update_self .., iff_of_true adds.removed (by simp [failedCall])⟩

/-- The calls of a publication, as a host of the vpn module answers them. -/
def answers : Except PublishError Unit → PublishCall → Except String Unit
  | .error (.call failed error), one => if one = failed then .error error else .ok ()
  | .ok _, _ => .ok ()

theorem publishPort_answered {host : Host} {file : PortFile} (answered : host.publishes = answers result) :
    Vpn.publishPort host port file =
      (if !result.isOk then file else { content := some (itoa port), replaced := file.replaced + 1 }, result) := by
  unfold Vpn.publishPort
  cases result with
  | ok done => simp [publishCalls, answered, answers, Except.isOk, Except.toBool]
  | error error =>
    obtain ⟨failed, message⟩ := error
    cases failed <;> simp [publishCalls, answered, answers, Except.isOk, Except.toBool]

/-- The vpn module's publication leaves out the temporary file, and nothing else. -/
theorem publishPort_refines {host : Host} {file : PortFile}
    (alone : publishing.Alone (publishPort port) d trace result d')
    (answered : host.publishes = answers result) (same : file.content = d.target) :
    (Vpn.publishPort host port file).1.content = d'.target ∧ (Vpn.publishPort host port file).2 = result := by
  rw [publishPort_answered answered, (publishPort_ends alone).1]
  refine ⟨?_, rfl⟩
  split
  · exact same
  · rfl

end Publish

/-! ### writeConfig -/

/-- The directory of services.yaml. -/
def directory (w : World) : Directory := ⟨some w.file, w.temps⟩

def failedOp : Act Op Op.Ans → Option Call
  | ⟨.createTemp, .error _⟩ => some .create
  | ⟨.writeTemp _ _, some _⟩ => some .write
  | ⟨.syncTemp _, some _⟩ => some .sync
  | ⟨.closeTemp _, some _⟩ => some .close
  | ⟨.chmodTemp _, some _⟩ => some .chmod
  | ⟨.renameTemp _, some _⟩ => some .rename
  | ⟨.removeTemp _, some _⟩ => some .remove
  | _ => none

/-- What failed, in order: the deferred cleanup runs and succeeds, or nothing is left to clean up. -/
def CleansUp (failures : List Call) : Prop :=
  failures.head? ≠ some .close ∧ failures.head? ≠ some .rename ∧ Call.remove ∉ failures

instance : DecidablePred CleansUp := fun _ => inferInstanceAs (Decidable (_ ∧ _ ∧ _))

section Write
variable {w w' : World} {trace : List (Act Op Op.Ans)} {error : Option String}

theorem cleanup_temps {mid : World} {file : Nat} {message : String} (adds : Adds w.temps file mid.temps)
    (alone : daemon.Alone (cleanup file message) mid trace error w') :
    w'.temps = w.temps ↔ Call.remove ∉ trace.filterMap failedOp := by
  obtain ⟨closed, _, rfl, _, removed, _, rfl, _, rfl, rfl, rfl⟩ := alone
  cases removed with
  | none => exact iff_of_true adds.removed (by cases closed <;> simp [failedOp])
  | some message => exact iff_of_false adds.left (by cases closed <;> simp [failedOp])

theorem writeConfig_temps (ran : daemon.Alone writeConfig w trace error w') :
    w'.temps = w.temps ↔ CleansUp (trace.filterMap failedOp) := by
  unfold writeConfig at ran
  obtain ⟨_, rfl, alone⟩ := alone_readConfig.mp ran
  obtain ⟨created, _, rfl, permitted, alone⟩ := alone
  cases created with
  | error message =>
    obtain ⟨rfl, rfl, rfl⟩ := alone
    exact iff_of_true rfl (by simp [failedOp, CleansUp, List.findSome?])
  | ok file =>
  have free : w.temps file = none := of_decide_eq_true permitted
  obtain ⟨written, _, rfl, _, alone⟩ := alone
  cases written with
  | some message =>
    have adds : Adds w.temps file (Function.update w.temps file (some [])) := ⟨free, [], rfl⟩
    exact (cleanup_temps adds alone).trans (by simp [failedOp, CleansUp, List.findSome?])
  | none =>
  have adds : Adds w.temps file (Function.update (Function.update w.temps file (some [])) file (some (render w.cfg))) :=
    ⟨free, render w.cfg, Function.update_idem ..⟩
  obtain ⟨synced, _, rfl, _, alone⟩ := alone
  cases synced with
  | some message => exact (cleanup_temps adds alone).trans (by simp [failedOp, CleansUp, List.findSome?])
  | none =>
  obtain ⟨closed, _, rfl, _, alone⟩ := alone
  cases closed with
  | some message =>
    obtain ⟨rfl, rfl, rfl⟩ := alone
    exact iff_of_false adds.left (by simp [failedOp, CleansUp, List.findSome?])
  | none =>
  obtain ⟨chmodded, _, rfl, _, alone⟩ := alone
  cases chmodded with
  | some message => exact (cleanup_temps adds alone).trans (by simp [failedOp, CleansUp, List.findSome?])
  | none =>
  obtain ⟨_, _, rfl, _, rfl, rfl, rfl⟩ := alone
  cases error with
  | some message => exact iff_of_false adds.left (by simp [failedOp, CleansUp, List.findSome?])
  | none => exact iff_of_true adds.removed (by simp [failedOp, CleansUp, List.findSome?])

end Write

inductive Writer where
  | writeConfig | publishPort

/-- `PublishPort` leaves a temporary file behind only where its removal fails; `writeConfig` also after a failed
close or rename. -/
def Writer.CleansUp : Writer → List Call → Prop
  | writeConfig, failures => AtomicWriters.CleansUp failures
  | publishPort, failures => Call.remove ∉ failures

/-- A call of a writer, with the directory before and after it, the new content, whether it returns an error, and the
calls that failed. -/
inductive Returns : Writer → Directory → Text → Bool → List Call → Directory → Prop where
  | writeConfig {w w' : World} {trace : List (Act Op Op.Ans)} {error : Option String}
    (ran : daemon.Alone HomelabDaemon.writeConfig w trace error w') :
    Returns .writeConfig (directory w) (render w.cfg) error.isSome (trace.filterMap failedOp) (directory w')
  | publishPort {d d' : Directory} {port : Int} {trace : List (Act PublishOp PublishOp.Ans)}
      {result : Except PublishError Unit}
    (ran : publishing.Alone (AtomicWriters.publishPort port) d trace result d') :
    Returns .publishPort d (itoa port) (!result.isOk) (trace.filterMap failedCall) d'

theorem writers_clean_iff {writer : Writer} {before after : Directory} {content : Text} {failed : Bool}
    {failures : List Call} (returns : Returns writer before content failed failures after) :
    before.Clean content failed after ↔ writer.CleansUp failures := by
  cases returns with
  | @writeConfig w w' trace error ran =>
    have target : (directory w').target = if error.isSome then (directory w).target else some (render w.cfg) := by
      have file := (writeConfig_ends ⟨trace, ran⟩).file
      rw [directory, file]
      exact apply_ite some ..
    rw [Writer.CleansUp, ← writeConfig_temps ran]
    exact ⟨fun clean => clean.temps, fun temps => ⟨target, temps⟩⟩
  | publishPort ran =>
    obtain ⟨target, temps⟩ := publishPort_ends ran
    rw [Writer.CleansUp, ← temps]
    exact ⟨fun clean => clean.temps, fun temps => ⟨target, temps⟩⟩

namespace Demo

def world : World := { cfg := {}, file := "version: 0\n".toList }

/-- The rename fails. -/
def left : World :=
  { world with temps := Function.update (Function.update world.temps 0 (some [])) 0 (some (render world.cfg)) }

def trace : List (Act Op Op.Ans) :=
  [⟨.config, world.cfg⟩, ⟨.createTemp, .ok 0⟩, ⟨.writeTemp 0 (render world.cfg), none⟩, ⟨.syncTemp 0, none⟩,
    ⟨.closeTemp 0, none⟩, ⟨.chmodTemp 0, none⟩, ⟨.renameTemp 0, some "no space left on device"⟩]

theorem ran : daemon.Alone writeConfig world trace (some "no space left on device") left :=
  have played : playAlone daemon (Outside.answer { diskError := some "no space left on device" }) writeConfig world =
      some (trace, some "no space left on device", left) := rfl
  playAlone_alone played

def published : Directory where
  target := some (itoa 48261)
  temps := Function.update (Function.update (Function.update (fun _ => none) 0 (some [])) 0 (some (itoa 48261))) 0 none

def publication : List (Act PublishOp PublishOp.Ans) :=
  [⟨.mkdirAll, none⟩, ⟨.createTemp, .ok 0⟩, ⟨.writeString 0 (itoa 48261), none⟩, ⟨.close 0, none⟩, ⟨.rename 0, none⟩]

theorem publishes : publishing.Alone (publishPort 48261) {} publication (.ok ()) published :=
  ⟨none, _, rfl, rfl, .ok 0, _, rfl, rfl, none, _, rfl, rfl, none, _, rfl, rfl, none, _, rfl, rfl, rfl, rfl, rfl⟩

end Demo

/-- The renamed file stays beside the old configuration. -/
theorem failed_rename_leaves : ∃ trace w',
    daemon.Alone writeConfig Demo.world trace (some "no space left on device") w' ∧
    Call.remove ∉ trace.filterMap failedOp ∧
    ¬ (directory Demo.world).Clean (render Demo.world.cfg) true (directory w') :=
  have adds : Adds Demo.world.temps 0 Demo.left.temps := ⟨rfl, render Demo.world.cfg, Function.update_idem ..⟩
  ⟨Demo.trace, Demo.left, Demo.ran, by decide, fun clean => adds.left clean.temps⟩

theorem writers_clean_demo :
    ¬ (directory Demo.world).Clean (render Demo.world.cfg) true (directory Demo.left) ∧
      Directory.Clean {} (itoa 48261) false Demo.published := by
  have renamed : ¬ CleansUp (Demo.trace.filterMap failedOp) := by decide
  have removed : Call.remove ∉ Demo.publication.filterMap failedCall := by decide
  exact ⟨fun clean => renamed ((writers_clean_iff (.writeConfig Demo.ran)).mp clean),
    (writers_clean_iff (.publishPort Demo.publishes)).mpr removed⟩

end HomelabDaemon.AtomicWriters
