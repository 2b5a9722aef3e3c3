import Mathlib.Data.List.Basic
import Mathlib.Data.List.Induction
import Mathlib.Logic.Function.Basic

/-!
# Mails with a cooldown

The time of a mail is noted before it is sent, and stays noted when sending fails. What was mailed
and what was not is the log of a run.
-/

namespace HomelabDaemon

structure Notifier where
  /-- `smtp.Host`. -/
  host : String
  lastNotify : String → Option Int := fun _ => none

namespace Notifier

def enabled (n : Notifier) : Bool := n.host ≠ ""

def note (n : Notifier) (key : String) (now : Int) : Notifier :=
  { n with lastNotify := Function.update n.lastNotify key (some now) }

@[simp] theorem note_enabled (n : Notifier) (key : String) (now : Int) : (n.note key now).enabled = n.enabled := rfl

@[simp] theorem note_own (n : Notifier) (key : String) (now : Int) : (n.note key now).lastNotify key = some now :=
  Function.update_self ..

theorem note_other (n : Notifier) {key other : String} (now : Int) (apart : other ≠ key) :
    (n.note key now).lastNotify other = n.lastNotify other :=
  Function.update_of_ne apart ..

/-- A call of `SendWithCooldown`, with what the mail server answers if it is asked. -/
structure Call where
  key : String
  now : Int
  accepted : Bool

inductive Outcome where
  | disabled
  | suppressed
  | sent (ok : Bool)
  deriving DecidableEq

/-- Times are in nanoseconds. -/
def sendWithCooldown (cooldown : Int) (n : Notifier) (call : Call) : Notifier × Outcome :=
  if n.enabled then
    match n.lastNotify call.key with
    | some last =>
      if call.now < last + cooldown then (n, .suppressed)
      else (n.note call.key call.now, .sent call.accepted)
    | none => (n.note call.key call.now, .sent call.accepted)
  else (n, .disabled)

structure Entry where
  call : Call
  outcome : Outcome

structure State where
  notifier : Notifier
  log : List Entry := []

def step (cooldown : Int) (s : State) (call : Call) : State where
  notifier := (sendWithCooldown cooldown s.notifier call).1
  log := s.log ++ [⟨call, (sendWithCooldown cooldown s.notifier call).2⟩]

def run (cooldown : Int) (n : Notifier) (calls : List Call) : State := calls.foldl (step cooldown) { notifier := n }

def Tried (key : String) (x : Entry) : Prop := x.call.key = key ∧ ∃ ok, x.outcome = .sent ok

def Spaced (cooldown : Int) (log : List Entry) : Prop :=
  log.Pairwise fun x y => x.call.key = y.call.key → x.outcome = .sent true → y.outcome = .sent true →
    x.call.now + cooldown ≤ y.call.now

/-- Before each call that is suppressed, a mail for its key went out, less than the cooldown ago. -/
def Justified (cooldown : Int) (log : List Entry) : Prop :=
  ∀ before x after, log = before ++ x :: after → x.outcome = .suppressed →
    ∃ y ∈ before, y.call.key = x.call.key ∧ y.outcome = .sent true ∧ x.call.now < y.call.now + cooldown

/-- No call follows a failed mail for its key within the cooldown. -/
def Undisturbed (cooldown : Int) (log : List Entry) : Prop :=
  log.Pairwise fun x y => x.call.key = y.call.key → x.outcome = .sent false → x.call.now + cooldown ≤ y.call.now

/-- The clock does not go back. -/
def Ordered (calls : List Call) : Prop := calls.Pairwise fun x y => x.now ≤ y.now

section Log
variable {cooldown : Int} {log : List Entry} {z : Entry}

theorem justified_snoc : Justified cooldown (log ++ [z]) ↔ Justified cooldown log ∧
    (z.outcome = .suppressed →
      ∃ y ∈ log, y.call.key = z.call.key ∧ y.outcome = .sent true ∧ z.call.now < y.call.now + cooldown) := by
  constructor
  · intro justified
    refine ⟨fun before x after same => ?_, justified log z [] rfl⟩
    exact justified before x (after ++ [z]) (by rw [same]; simp)
  · rintro ⟨justified, last⟩ before x after same
    rcases List.eq_nil_or_concat' after with rfl | ⟨after, w, rfl⟩
    · obtain ⟨rfl, rfl⟩ : log = before ∧ z = x := by simpa using List.append_inj' same rfl
      exact last
    · have front : log = before ++ x :: after ∧ [z] = [w] := List.append_inj' (by simpa using same) rfl
      exact justified before x after front.1

end Log

/-! ### What is noted -/

/-- The last try for the key was at `t`, and all others the cooldown before it. -/
def LastTry (cooldown : Int) (log : List Entry) (key : String) (t : Int) : Prop :=
  ∃ before x after, log = before ++ x :: after ∧ Tried key x ∧ x.call.now = t ∧
    (∀ y ∈ before, Tried key y → y.call.now + cooldown ≤ t) ∧ ∀ y ∈ after, ¬ Tried key y

/-- The notifier knows the last try for each key, and tries only when it is enabled. -/
structure Noted (cooldown : Int) (s : State) : Prop where
  fresh : ∀ key, s.notifier.lastNotify key = none → ∀ y ∈ s.log, ¬ Tried key y
  last : ∀ key t, s.notifier.lastNotify key = some t → LastTry cooldown s.log key t
  quiet : s.notifier.enabled = false → ∀ key, ∀ y ∈ s.log, ¬ Tried key y

inductive Effect (cooldown : Int) (s : State) (call : Call) : State → Prop where
  | disabled (off : s.notifier.enabled = false) : Effect cooldown s call { s with log := s.log ++ [⟨call, .disabled⟩] }
  | suppressed {last : Int} (noted : s.notifier.lastNotify call.key = some last) (early : call.now < last + cooldown) :
    Effect cooldown s call { s with log := s.log ++ [⟨call, .suppressed⟩] }
  | sent (on : s.notifier.enabled = true) (late : ∀ last, s.notifier.lastNotify call.key = some last →
      last + cooldown ≤ call.now) :
    Effect cooldown s call
      { notifier := s.notifier.note call.key call.now, log := s.log ++ [⟨call, .sent call.accepted⟩] }

section Step
variable {cooldown : Int} {s next : State} {call : Call}

theorem step_effect (cooldown : Int) (s : State) (call : Call) : Effect cooldown s call (step cooldown s call) := by
  unfold step sendWithCooldown
  cases on : s.notifier.enabled with
  | false => exact .disabled on
  | true =>
    cases noted : s.notifier.lastNotify call.key with
    | none => exact .sent on fun last had => by cases noted.symm.trans had
    | some last =>
      by_cases early : call.now < last + cooldown
      · simp only [if_true, if_pos early]
        exact .suppressed noted early
      · simp only [if_true, if_neg early]
        refine .sent on fun last' had => ?_
        obtain rfl := Option.some.inj (noted.symm.trans had)
        omega

variable (noted : Noted cooldown s) (clock : ∀ x ∈ s.log, x.call.now ≤ call.now)
include noted clock

/-- All tries before the last one are the cooldown before anything that comes now. -/
theorem tried_last {key : String} {t : Int} (at_ : s.notifier.lastNotify key = some t) :
    ∃ x ∈ s.log, Tried key x ∧ x.call.now = t ∧ ∀ y ∈ s.log, Tried key y → y = x ∨
    y.call.now + cooldown ≤ call.now := by
  obtain ⟨before, x, after, log, tried, rfl, earlier, later⟩ := noted.last key t at_
  have member : x ∈ s.log := log ▸ List.mem_append_right before List.mem_cons_self
  refine ⟨x, member, tried, rfl, fun y listed at_ => ?_⟩
  rw [log] at listed
  rcases List.mem_append.mp listed with front | back
  · have apart := earlier y front at_
    have now := clock x member
    exact .inr (by omega)
  · rcases List.mem_cons.mp back with rfl | back
    · exact .inl rfl
    · exact absurd at_ (later y back)

theorem tried_late (late : ∀ last, s.notifier.lastNotify call.key = some last → last + cooldown ≤ call.now) :
    ∀ y ∈ s.log, Tried call.key y → y.call.now + cooldown ≤ call.now := by
  intro y listed tried
  cases at_ : s.notifier.lastNotify call.key with
  | none => exact absurd tried (noted.fresh call.key at_ y listed)
  | some t =>
    obtain ⟨x, _, _, rfl, all⟩ := tried_last noted clock at_
    rcases all y listed tried with rfl | apart
    · exact late _ at_
    · exact apart

omit clock in
theorem noted_untried {z : Entry} (untried : ∀ key, ¬ Tried key z) : Noted cooldown { s with log := s.log ++ [z] } where
  fresh key none_ y listed := by
    rcases List.mem_append.mp listed with old | new
    · exact noted.fresh key none_ y old
    · rw [List.mem_singleton.mp new]
      exact untried key
  last key t at_ := by
    obtain ⟨before, x, after, log, tried, now, earlier, later⟩ := noted.last key t at_
    refine ⟨before, x, after ++ [z], by simp [log], tried, now, earlier, ?_⟩
    exact List.forall_mem_append.mpr ⟨later, List.forall_mem_singleton.mpr (untried key)⟩
  quiet off key y listed := by
    rcases List.mem_append.mp listed with old | new
    · exact noted.quiet off key y old
    · rw [List.mem_singleton.mp new]
      exact untried key

theorem noted_step (effect : Effect cooldown s call next) : Noted cooldown next := by
  cases effect with
  | disabled off => exact noted_untried noted fun _ tried => by cases tried.2.choose_spec
  | suppressed at_ early => exact noted_untried noted fun _ tried => by cases tried.2.choose_spec
  | sent on late =>
    have other : ∀ key, key ≠ call.key → ¬ Tried key ⟨call, .sent call.accepted⟩ := fun key apart tried =>
      apart tried.1.symm
    constructor
    case fresh =>
      intro key none_ y listed
      by_cases own : key = call.key
      · rw [own, note_own] at none_
        cases none_
      · rw [note_other _ _ own] at none_
        rcases List.mem_append.mp listed with old | new
        · exact noted.fresh key none_ y old
        · rw [List.mem_singleton.mp new]
          exact other key own
    case last =>
      intro key t at_
      by_cases own : key = call.key
      · subst own
        rw [note_own] at at_
        obtain rfl := Option.some.inj at_
        exact ⟨s.log, ⟨call, .sent call.accepted⟩, [], rfl, ⟨rfl, _, rfl⟩, rfl, tried_late noted clock late, nofun⟩
      · rw [note_other _ _ own] at at_
        obtain ⟨before, x, after, log, tried, now, earlier, later⟩ := noted.last key t at_
        refine ⟨before, x, after ++ [⟨call, .sent call.accepted⟩], by simp [log], tried, now, earlier, ?_⟩
        exact List.forall_mem_append.mpr ⟨later, List.forall_mem_singleton.mpr (other key own)⟩
    case quiet =>
      intro off
      cases off.symm.trans on

theorem spaced_step (effect : Effect cooldown s call next) (spaced : Spaced cooldown s.log) :
    Spaced cooldown next.log := by
  have single : ∀ z : Entry, Spaced cooldown [z] := fun z => List.pairwise_singleton _ z
  cases effect with
  | disabled off => exact List.pairwise_append.mpr ⟨spaced, single _, fun x _ y last _ _ ok => by
      rw [List.mem_singleton.mp last] at ok
      cases ok⟩
  | suppressed at_ early => exact List.pairwise_append.mpr ⟨spaced, single _, fun x _ y last _ _ ok => by
      rw [List.mem_singleton.mp last] at ok
      cases ok⟩
  | sent on late =>
    refine List.pairwise_append.mpr ⟨spaced, single _, fun x listed y last same ok _ => ?_⟩
    rw [List.mem_singleton.mp last] at same ⊢
    exact tried_late noted clock late x listed ⟨same, true, ok⟩

/-- The last entry of a log is justified where no failed mail disturbs it. -/
theorem justified_last (effect : Effect cooldown s call next) : ∃ z, z.call = call ∧ next.log = s.log ++ [z] ∧
    ((z.outcome = .suppressed →
        ∃ y ∈ s.log, y.call.key = call.key ∧ y.outcome = .sent true ∧ call.now < y.call.now + cooldown) ↔
      ∀ x ∈ s.log, x.call.key = call.key → x.outcome = .sent false → x.call.now + cooldown ≤ call.now) := by
  cases effect with
  | disabled off =>
    refine ⟨⟨call, .disabled⟩, rfl, rfl, iff_of_true nofun fun x listed same failed => ?_⟩
    exact absurd ⟨rfl, false, failed⟩ (noted.quiet off x.call.key x listed)
  | @suppressed last at_ early =>
    refine ⟨⟨call, .suppressed⟩, rfl, rfl, ?_⟩
    obtain ⟨x, member, ⟨key, ok, outcome⟩, rfl, all⟩ := tried_last noted clock at_
    constructor
    · intro justified w listed same failed
      obtain ⟨y, listed', same', sent, close⟩ := justified rfl
      -- the mail that justifies it can only be the last try
      obtain rfl : y = x := (all y listed' ⟨same', true, sent⟩).resolve_right (by omega)
      rcases all w listed ⟨same, false, failed⟩ with rfl | apart
      · cases failed.symm.trans sent
      · exact apart
    · intro undisturbed _
      cases ok with
      | true => exact ⟨x, member, key, outcome, early⟩
      | false =>
        have late := undisturbed x member key outcome
        omega
  | sent on late =>
    refine ⟨⟨call, .sent call.accepted⟩, rfl, rfl, iff_of_true nofun fun x listed same failed => ?_⟩
    exact tried_late noted clock late x listed ⟨same, false, failed⟩

theorem justified_step (effect : Effect cooldown s call next)
    (same : Justified cooldown s.log ↔ Undisturbed cooldown s.log) :
    Justified cooldown next.log ↔ Undisturbed cooldown next.log := by
  obtain ⟨z, rfl, log, last⟩ := justified_last noted clock effect
  rw [log, justified_snoc, last, same, Undisturbed, Undisturbed, List.pairwise_append]
  simp

end Step

/-! ### Runs -/

section Run
variable {cooldown : Int} {host : String} {calls : List Call}

theorem run_snoc (n : Notifier) (call : Call) :
    run cooldown n (calls ++ [call]) = step cooldown (run cooldown n calls) call := by
  simp [run]

theorem run_calls (cooldown : Int) (n : Notifier) (calls : List Call) :
    (run cooldown n calls).log.map (·.call) = calls := by
  induction calls using List.reverseRecOn with
  | nil => rfl
  | append_singleton calls call ih => simp [run_snoc, step, ih]

theorem run_log (ordered : Ordered calls) : Noted cooldown (run cooldown { host := host } calls) ∧
    Spaced cooldown (run cooldown { host := host } calls).log ∧
    (Justified cooldown (run cooldown { host := host } calls).log ↔
      Undisturbed cooldown (run cooldown { host := host } calls).log) := by
  induction calls using List.reverseRecOn with
  | nil =>
    refine ⟨⟨nofun, nofun, nofun⟩, .nil, iff_of_true ?_ .nil⟩
    intro before x after same
    simp [run] at same
  | append_singleton calls call ih =>
    obtain ⟨earlier, _, now⟩ := List.pairwise_append.mp ordered
    obtain ⟨noted, spaced, same⟩ := ih earlier
    have clock : ∀ x ∈ (run cooldown { host := host } calls).log, x.call.now ≤ call.now := by
      intro x member
      refine now x.call ?_ call List.mem_cons_self
      rw [← run_calls cooldown { host := host } calls]
      exact List.mem_map_of_mem member
    have effect := step_effect cooldown (run cooldown { host := host } calls) call
    rw [run_snoc]
    exact ⟨noted_step noted clock effect, spaced_step noted clock effect spaced, justified_step noted clock effect same⟩

/-- Mails for a key are the cooldown apart; and every call that is suppressed follows one that went
out, as long as no call follows a failed mail too soon. -/
theorem cooldown_log (ordered : Ordered calls) :
    Spaced cooldown (run cooldown { host := host } calls).log ∧
    (Justified cooldown (run cooldown { host := host } calls).log ↔
      Undisturbed cooldown (run cooldown { host := host } calls).log) :=
  (run_log ordered).2

end Run

/-- A mail that goes out, and a call that is suppressed. -/
theorem cooldown_log_hour : Justified 3600 (run 3600 { host := "mail" } [⟨"service-failure", 0, true⟩,
    ⟨"service-failure", 5, true⟩]).log := by
  refine (cooldown_log ?_).2.mpr ?_
  · simp [Ordered]
  · simp [run, step, sendWithCooldown, enabled, note, Undisturbed]

/-- The mail server refuses the first mail, and the second call is suppressed. -/
theorem cooldown_lost : ¬ ∀ (cooldown : Int) (host : String) (calls : List Call), Ordered calls →
    Justified cooldown (run cooldown { host := host } calls).log := by
  intro claim
  have ordered : Ordered [⟨"service-failure", 0, false⟩, ⟨"service-failure", 5, true⟩] := by simp [Ordered]
  have justified := claim 3600 "mail" _ ordered [⟨⟨"service-failure", 0, false⟩, .sent false⟩]
    ⟨⟨"service-failure", 5, true⟩, .suppressed⟩ [] (by simp [run, step, sendWithCooldown, enabled, note]) rfl
  simp at justified

end Notifier
end HomelabDaemon
