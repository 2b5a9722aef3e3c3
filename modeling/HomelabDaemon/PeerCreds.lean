import HomelabDaemon.Concurrency.Trace
import Mathlib.Data.Finset.Basic
import Mathlib.Logic.Function.Basic

/-!
# Peer credentials

The listener of the daemon's socket keeps the credentials of each connection that it accepts, and the server asks
for them once, when it makes the context of the connection's requests.
-/

namespace HomelabDaemon.PeerCreds
open Concurrency

structure Ucred where
  pid : Int32
  uid : UInt32
  gid : UInt32
  deriving DecidableEq

/-- The listener and the server's side of its connections. `lookup` is what SO_PEERCRED gave for a connection. -/
structure State (Conn : Type) where
  creds : Conn → Option Ucred := fun _ => none
  opened : Finset Conn := ∅
  lookup : Conn → Option Ucred := fun _ => none
  /-- The uid in the context of a connection, once there is a context. -/
  contexts : Conn → Option (Option UInt32) := fun _ => none

inductive Event (Conn : Type) where
  /-- The lookup fails for want of a raw connection, too. -/
  | accept (c : Conn) (lookup : Option Ucred)
  | acceptFails
  | connContext (c : Conn)
  | close (c : Conn)

section Step
variable {Conn : Type} [DecidableEq Conn]

namespace State

def accept (s : State Conn) (c : Conn) (lookup : Option Ucred) : State Conn where
  creds := match lookup with
    | some cred => Function.update s.creds c (some cred)
    | none => s.creds
  opened := insert c s.opened
  lookup := Function.update s.lookup c lookup
  contexts := Function.update s.contexts c none

def creditFor (s : State Conn) (c : Conn) : Option Ucred := s.creds c

def connContext (s : State Conn) (c : Conn) : Option UInt32 := (s.creditFor c).map (·.uid)

/-- A connection that is open, or that the map still refers to, is no new one. -/
def step (s : State Conn) : Event Conn → Option (State Conn)
  | .accept c lookup => if c ∈ s.opened ∨ (s.creds c).isSome then none else some (s.accept c lookup)
  | .acceptFails => some s
  | .connContext c =>
    if c ∈ s.opened then some { s with contexts := Function.update s.contexts c (some (s.connContext c)) } else none
  | .close c => if c ∈ s.opened then some { s with opened := s.opened.erase c } else none

/-- An entry for open connections only, and in the requests of these the uid that was looked up. -/
structure Kept (s : State Conn) : Prop where
  entries : ∀ c, (s.creds c).isSome → c ∈ s.opened
  uids : ∀ c ∈ s.opened, ∀ cred, s.lookup c = some cred → ∀ uid, s.contexts c = some uid → uid = some cred.uid

/-- The step does not close a connection that has an entry. -/
def Spares (s : State Conn) : Event Conn → Prop
  | .close c => s.creds c = none
  | _ => True

end State

structure Sound (s : State Conn) : Prop where
  kept : s.Kept
  looked : ∀ c ∈ s.opened, s.creds c = s.lookup c

variable {s s' : State Conn} {c : Conn}

omit [DecidableEq Conn] in
theorem sound_new : Sound ({} : State Conn) :=
  ⟨⟨fun _ entry => absurd entry (by simp), fun _ member => absurd member (Finset.notMem_empty _)⟩,
    fun _ member => absurd member (Finset.notMem_empty _)⟩

theorem accept_creds (fresh : s.creds c = none) (lookup : Option Ucred) :
    (s.accept c lookup).creds = Function.update s.creds c lookup := by
  cases lookup with
  | some cred => rfl
  | none => exact (Function.update_eq_self_iff.mpr fresh.symm).symm

theorem accept_lookup (lookup : Option Ucred) : (s.accept c lookup).lookup = Function.update s.lookup c lookup := rfl

theorem accept_contexts (lookup : Option Ucred) : (s.accept c lookup).contexts = Function.update s.contexts c none :=
  rfl

theorem Sound.accept (sound : Sound s) (fresh : s.creds c = none) (lookup : Option Ucred) :
    Sound (s.accept c lookup) := by
  refine ⟨⟨fun d entry => ?_, fun d member cred found uid shown => ?_⟩, fun d member => ?_⟩
  · by_cases same : d = c
    · exact same ▸ Finset.mem_insert_self c s.opened
    · rw [accept_creds fresh, Function.update_of_ne same] at entry
      exact Finset.mem_insert_of_mem (sound.kept.entries d entry)
  · rw [accept_contexts] at shown
    rw [accept_lookup] at found
    by_cases same : d = c
    · rw [same, Function.update_self] at shown
      cases shown
    · rw [Function.update_of_ne same] at found shown
      exact sound.kept.uids d (Finset.mem_of_mem_insert_of_ne member same) cred found uid shown
  · rw [accept_creds fresh, accept_lookup]
    by_cases same : d = c
    · rw [same, Function.update_self, Function.update_self]
    · rw [Function.update_of_ne same, Function.update_of_ne same]
      exact sound.looked d (Finset.mem_of_mem_insert_of_ne member same)

theorem Sound.connContext (sound : Sound s) (c : Conn) :
    Sound { s with contexts := Function.update s.contexts c (some (s.connContext c)) } := by
  refine ⟨⟨sound.kept.entries, fun d member cred found uid shown => ?_⟩, sound.looked⟩
  dsimp only at member found shown
  by_cases same : d = c
  · rw [same, Function.update_self] at shown
    rw [same] at member found
    obtain rfl := Option.some.inj shown
    rw [State.connContext, State.creditFor, sound.looked c member, found, Option.map_some]
  · rw [Function.update_of_ne same] at shown
    exact sound.kept.uids d member cred found uid shown

theorem Sound.close (sound : Sound s) (bare : s.creds c = none) : Sound { s with opened := s.opened.erase c } := by
  refine ⟨⟨fun d entry => ?_, fun d member => ?_⟩, fun d member => ?_⟩
  · have other : d ≠ c := by
      rintro rfl
      rw [bare] at entry
      cases entry
    exact Finset.mem_erase.mpr ⟨other, sound.kept.entries d entry⟩
  · exact sound.kept.uids d (Finset.mem_of_mem_erase member)
  · exact sound.looked d (Finset.mem_of_mem_erase member)

theorem step_sound {e : Event Conn} (sound : Sound s) (stepped : s.step e = some s') (spares : s.Spares e) :
    Sound s' := by
  cases e with
  | accept c lookup =>
    simp only [State.step] at stepped
    split at stepped
    · cases stepped
    · rename_i fresh
      cases stepped
      rw [not_or, Option.not_isSome_iff_eq_none] at fresh
      exact sound.accept fresh.2 lookup
  | acceptFails =>
    cases stepped
    exact sound
  | connContext c =>
    simp only [State.step] at stepped
    split at stepped <;> cases stepped
    exact sound.connContext c
  | close c =>
    simp only [State.step] at stepped
    split at stepped <;> cases stepped
    exact sound.close spares

theorem step_spares {e : Event Conn} (stepped : s.step e = some s') (kept : s'.Kept) : s.Spares e := by
  cases e with
  | close c =>
    simp only [State.step] at stepped
    split at stepped <;> cases stepped
    by_contra entry
    exact Finset.notMem_erase c s.opened (kept.entries c (Option.isSome_iff_ne_none.mpr entry))
  | _ => trivial

/-! ### Runs -/

/-- Every state of a run keeps entries of open connections only exactly when no step closes a connection with one. -/
theorem creds_kept_iff (events : List (Event Conn)) :
    Trace.Always State.step State.Kept {} events ↔ Trace.Each State.step State.Spares {} events :=
  Trace.always_iff_each (fun _ sound => sound.kept) (fun _ _ _ => step_sound)
    (fun _ _ _ _ => step_spares) sound_new events

end Step

namespace Demo

def cred : Ucred := { pid := 4242, uid := 1000, gid := 100 }

/-- A client connects, is served and closes its connection. -/
def visit : List (Event Nat) := [.accept 7 (some cred), .connContext 7, .close 7]

end Demo

theorem closed_connection_stays : ¬ Trace.Always State.step State.Kept {} Demo.visit := by
  intro always
  have entry : (Trace.run State.step {} Demo.visit).map (fun s => ((s.creds 7).isSome, decide (7 ∈ s.opened))) =
    some (true, false) :=
    rfl
  obtain ⟨s, ran, shown⟩ := Option.map_eq_some_iff.mp entry
  have kept := Trace.always_iff.mp always Demo.visit s List.prefix_rfl ran
  obtain ⟨has, away⟩ := Prod.mk.inj shown
  exact of_decide_eq_false away (kept.entries 7 has)

end HomelabDaemon.PeerCreds
