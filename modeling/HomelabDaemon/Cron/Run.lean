import HomelabDaemon.Cron.Parser
import Mathlib.Data.List.Nodup
import Mathlib.Order.Nat

/-!
# The cron goroutine

The vendored cron's `run`: entries sorted by their next time, and on each wake-up those that are
due, from the front on, until one is not. The sort need not be stable. A log keeps when which
entries were looked at, so that a start can be told from its schedule.
-/

namespace Crontab

structure Entry (S : Type) where
  id : Nat
  schedule : S
  /-- `none` is the zero time. -/
  next : Option Nat := none
  prev : Option Nat := none

section Goroutine
variable {S : Type}

def ids (entries : List (Entry S)) : List Nat := entries.map (·.id)

/-- `byTime.Less`: the zero time comes last. -/
def Entry.before (a b : Entry S) : Bool :=
  match a.next, b.next with
  | none, _ => false
  | some _, none => true
  | some x, some y => decide (x < y)

/-- An order that `sort.Sort` may leave. -/
def SortedByTime (order : List (Entry S)) : Prop := order.Pairwise fun a b => b.before a = false

def Entry.due (now : Nat) (e : Entry S) : Bool := e.next.any fun next => decide (next ≤ now)

variable (next : S → Nat → Option Nat)

def Entry.look (now : Nat) (e : Entry S) : Entry S := { e with next := next e.schedule now }

def Entry.start (now : Nat) (e : Entry S) : Entry S := { e with prev := e.next, next := next e.schedule now }

/-- The loop over the entries at a wake-up: those that it starts, and the entries after it. -/
def runDue (now : Nat) : List (Entry S) → List (Entry S) × List (Entry S)
  | [] => ([], [])
  | e :: entries =>
    if !e.due now then ([], e :: entries)
    else (e :: (runDue now entries).1, e.start next now :: (runDue now entries).2)

structure Runner (S : Type) where
  entries : List (Entry S)
  nextID : Nat

inductive Tick where
  | begin (now : Nat)
  | wake (now : Nat) (started : List Nat)
  | added (now : Nat) (id : Nat)
  | removed (id : Nat)

/-- When the entry's next time was computed last. -/
def since (id : Nat) : List Tick → Nat
  | [] => 0
  | .begin now :: _ => now
  | .wake now started :: log => if id ∈ started then now else since id log
  | .added now new :: log => if id = new then now else since id log
  | .removed _ :: log => since id log

/-- What the goroutine has done, the newest first, and the entries it has then. -/
inductive Run : List Tick → Runner S → Prop where
  | begin {entries : List (Entry S)} {nextID : Nat} (now : Nat) (distinct : (ids entries).Nodup)
      (fresh : ∀ e ∈ entries, e.id ≤ nextID) : Run [.begin now] ⟨entries.map (·.look next now), nextID⟩
  | wake {log : List Tick} {c : Runner S} {order : List (Entry S)} (now : Nat) (before : Run log c)
      (perm : order.Perm c.entries)
      (sorted : SortedByTime order) :
      Run (.wake now (ids (runDue next now order).1) :: log) { c with entries := (runDue next now order).2 }
  | add {log : List Tick} {c : Runner S} (now : Nat) (schedule : S) (before : Run log c) :
      Run (.added now (c.nextID + 1) :: log)
        ⟨c.entries ++ [{ id := c.nextID + 1, schedule := schedule, next := next schedule now }], c.nextID + 1⟩
  | remove {log : List Tick} {c : Runner S} (id : Nat) (before : Run log c) :
      Run (.removed id :: log) { c with entries := c.entries.filter (·.id != id) }

/-- Every next time was computed when the log says. -/
structure Good (log : List Tick) (c : Runner S) : Prop where
  distinct : (ids c.entries).Nodup
  fresh : ∀ e ∈ c.entries, e.id ≤ c.nextID
  next : ∀ e ∈ c.entries, e.next = next e.schedule (since e.id log)

variable {next}

/-- Behind an entry that is not due none is. -/
theorem due_front {now : Nat} {e : Entry S} {entries : List (Entry S)} (sorted : SortedByTime (e :: entries))
    (late : e.due now = false) : ∀ b ∈ entries, b.due now = false := by
  intro b member
  have order := List.rel_of_pairwise_cons sorted member
  unfold Entry.before at order
  unfold Entry.due at late ⊢
  cases mine : e.next with
  | none =>
    cases other : b.next with
    | none => rfl
    | some y => simp [mine, other] at order
  | some x =>
    cases other : b.next with
    | none => rfl
    | some y =>
      simp only [mine, other, decide_eq_false_iff_not] at order
      simp only [mine, Option.any_some, decide_eq_false_iff_not] at late
      simp only [Option.any_some, decide_eq_false_iff_not]
      omega

/-- In a sorted list the loop reaches every entry that is due. -/
theorem runDue_sorted {now : Nat} {order : List (Entry S)} (sorted : SortedByTime order) :
    runDue next now order = (order.filter (·.due now), order.map fun e => if e.due now then e.start next now
    else e) := by
  induction order with
  | nil => rfl
  | cons e entries ih =>
    unfold runDue
    cases due : e.due now with
    | true =>
      rw [ih (List.Pairwise.of_cons sorted)]
      simp [due]
    | false =>
      have none_ := due_front sorted due
      have kept : entries.map (fun b => if b.due now then b.start next now else b) = entries := by
        have same : entries.map (fun b => if b.due now then b.start next now else b) = entries.map id :=
          List.map_congr_left fun b member => by simp [none_ b member]
        rw [same, List.map_id]
      have empty : entries.filter (·.due now) = [] :=
        List.filter_eq_nil_iff.mpr fun b member => by simp [none_ b member]
      simp [due, kept, empty]

theorem mem_started (now : Nat) {order entries : List (Entry S)} (perm : order.Perm entries)
    (distinct : (ids entries).Nodup)
    {e : Entry S} (member : e ∈ entries) : e.id ∈ ids (order.filter (·.due now)) ↔ e.due now = true := by
  constructor
  · intro started
    obtain ⟨b, found, same⟩ := List.mem_map.mp started
    obtain ⟨inside, due⟩ := List.mem_filter.mp found
    rw [← List.inj_on_of_nodup_map distinct (perm.mem_iff.mp inside) member same]
    exact due
  · intro due
    exact List.mem_map_of_mem (List.mem_filter.mpr ⟨perm.mem_iff.mpr member, due⟩)

theorem Run.good {log : List Tick} {c : Runner S} (run : Run next log c) : Good next log c := by
  induction run with
  | begin now distinct fresh =>
    refine ⟨by simpa [ids, Entry.look, Function.comp_def] using distinct, ?_, ?_⟩
    · intro e member
      obtain ⟨b, inside, rfl⟩ := List.mem_map.mp member
      exact fresh b inside
    · intro e member
      obtain ⟨b, inside, rfl⟩ := List.mem_map.mp member
      rfl
  | @wake log c order now before perm sorted ih =>
    rw [runDue_sorted sorted]
    have same : ids (order.map fun e => if e.due now then e.start next now else e) = ids order := by
      rw [ids, ids, List.map_map]
      refine List.map_congr_left fun e _ => ?_
      show (if e.due now then e.start next now else e).id = e.id
      split <;> rfl
    refine ⟨?_, ?_, ?_⟩
    · show (ids _).Nodup
      rw [same]
      exact (perm.map _).nodup_iff.mpr ih.distinct
    · intro e member
      obtain ⟨b, inside, rfl⟩ := List.mem_map.mp member
      have bound := ih.fresh b (perm.mem_iff.mp inside)
      split <;> exact bound
    · intro e member
      obtain ⟨b, inside, rfl⟩ := List.mem_map.mp member
      have old := perm.mem_iff.mp inside
      have started := mem_started now perm ih.distinct old
      split
      · rename_i due
        show next b.schedule now = next b.schedule (since b.id _)
        rw [since, if_pos (started.mpr due)]
      · rename_i late
        show b.next = next b.schedule (since b.id _)
        rw [since, if_neg fun inside => late (started.mp inside)]
        exact ih.next b old
  | @add log c now schedule before ih =>
    have other : ∀ e ∈ c.entries, e.id ≠ c.nextID + 1 := by
      intro e member same
      have bound := ih.fresh e member
      omega
    refine ⟨?_, ?_, ?_⟩
    · show (ids (c.entries ++ [_])).Nodup
      rw [ids, List.map_append, List.map_singleton, ← List.concat_eq_append]
      refine ih.distinct.concat fun member => ?_
      obtain ⟨e, inside, same⟩ := List.mem_map.mp member
      exact other e inside same
    · intro e member
      show e.id ≤ c.nextID + 1
      rcases List.mem_append.mp member with old | new
      · exact Nat.le_succ_of_le (ih.fresh e old)
      · rw [List.mem_singleton.mp new]
    · intro e member
      rcases List.mem_append.mp member with old | new
      · rw [since, if_neg (other e old)]
        exact ih.next e old
      · rw [List.mem_singleton.mp new, since, if_pos rfl]
  | remove id before ih =>
    refine ⟨ih.distinct.sublist (List.filter_sublist.map _), ?_, ?_⟩
    · exact fun e member => ih.fresh e (List.mem_filter.mp member).1
    · exact fun e member => ih.next e (List.mem_filter.mp member).1

/-- A wake-up starts each entry at most once, and exactly those whose next time, counted from
when it was computed last, has come: none is missed behind one that is not due. -/
theorem Run.wake_starts {log : List Tick} {c : Runner S} {order : List (Entry S)} {now : Nat} {e : Entry S}
    (run : Run next log c) (perm : order.Perm c.entries) (sorted : SortedByTime order) (member : e ∈ c.entries) :
    (ids (runDue next now order).1).Nodup ∧
      (e.id ∈ ids (runDue next now order).1 ↔ ∃ due, next e.schedule (since e.id log) = some due ∧ due ≤ now) := by
  have good := run.good
  rw [runDue_sorted sorted]
  constructor
  · exact ((perm.map _).nodup_iff.mpr good.distinct).sublist (List.filter_sublist.map _)
  · rw [mem_started now perm good.distinct member, Entry.due, good.next e member, Option.any_eq_true]
    simp only [decide_eq_true_eq]

end Goroutine

/-! ### Schedules of bits -/

/-- `Next` as a time in nanoseconds. -/
def SpecSchedule.nextTime (s : SpecSchedule) (t : Nat) : Option Nat := (s.next t).map (· * 1000000000)

section Wake
variable {log : List Tick} {c : Runner SpecSchedule} {order : List (Entry SpecSchedule)} {now : Nat}
  {e : Entry SpecSchedule}

/-- A wake-up starts an entry exactly if its schedule was active since the entry's next time was
computed last, provided that was not more than five years ago. -/
theorem wake_active (run : Run SpecSchedule.nextTime log c) (perm : order.Perm c.entries) (sorted : SortedByTime order)
    (member : e ∈ c.entries) (recent : year (now / 1000000000) ≤ year (since e.id log / 1000000000 + 1) + 5) :
    e.id ∈ ids (runDue SpecSchedule.nextTime now order).1 ↔
      ∃ a, since e.id log < a * 1000000000 ∧ a * 1000000000 ≤ now ∧ e.schedule.Active a := by
  rw [(run.wake_starts perm sorted member).2]
  constructor
  · rintro ⟨due, next, past⟩
    obtain ⟨u, found, rfl⟩ := Option.map_eq_some_iff.mp next
    obtain ⟨after, _, active⟩ := ((next_isLeast _ _ _).mp found).1
    exact ⟨u, after, past, active⟩
  · rintro ⟨a, after, past, active⟩
    have soon : year a ≤ year (since e.id log / 1000000000 + 1) + 5 := by
      have earlier : year a ≤ year (now / 1000000000) := year_mono_seconds (by omega)
      omega
    have some_ : {v | since e.id log < v * 1000000000 ∧ year v ≤ year (since e.id log / 1000000000 + 1) + 5 ∧
        e.schedule.Active v}.Nonempty :=
      ⟨a, after, soon, active⟩
    classical
    have least := some_.isLeast_natFind
    refine ⟨Nat.find some_ * 1000000000, ?_, ?_⟩
    · rw [SpecSchedule.nextTime, (next_isLeast _ _ _).mpr least]
      rfl
    · exact Nat.le_trans (Nat.mul_le_mul_right _ (least.2 ⟨after, soon, active⟩)) past

/-- A wake-up starts the entry of an accepted line exactly if a minute that the line's fields
stand for has begun since the entry's next time was computed last. -/
theorem wake_matches {Location : Type} {loadLocation : Strings.Str → Option Location}
    {parseDuration : Strings.Str → Option Int}
    {spec mi h d mo w : Strings.Str} (words : Strings.fields spec = [mi, h, d, mo, w])
    (accepted : parse loadLocation parseDuration spec = .ok (.spec e.schedule none))
    (run : Run SpecSchedule.nextTime log c) (perm : order.Perm c.entries) (sorted : SortedByTime order)
    (member : e ∈ c.entries) (recent : year (now / 1000000000) ≤ year (since e.id log / 1000000000 + 1) + 5) :
    e.id ∈ ids (runDue SpecSchedule.nextTime now order).1 ↔
      ∃ a, since e.id log < a * 1000000000 ∧ a * 1000000000 ≤ now ∧ Matches mi h d mo w a := by
  simp only [wake_active run perm sorted member recent, parseFields_active (parse_fields words accepted)]

/-- At midnight a daily entry is started, behind a monthly one that is not. -/
theorem wake_matches_midnight : ∃ a, 0 < a * 1000000000 ∧ a * 1000000000 ≤ 86400000000000 ∧ Matches ['0'] ['0'] ['*']
    ['*'] ['*'] a := by
  have words : Strings.fields "0 0 * * *".toList = [['0'], ['0'], ['*'], ['*'], ['*']] := by decide
  have accepted : parse (fun _ => some ()) (fun _ => none) "0 0 * * *".toList = .ok (.spec daily none) := by decide
  have first : daily.nextTime 0 = some 86400000000000 := by decide +kernel
  have second : monthly.nextTime 0 = some 2678400000000000 := by decide +kernel
  have run : Run SpecSchedule.nextTime [.begin 0]
    ⟨[⟨1, monthly, monthly.nextTime 0, none⟩, ⟨2, daily, daily.nextTime 0, none⟩], 2⟩ :=
    @Run.begin _ _ [⟨1, monthly, none, none⟩, ⟨2, daily, none, none⟩] 2 0 (by decide) (by decide)
  rw [first, second] at run
  let e : Entry SpecSchedule := ⟨2, daily, some 86400000000000, none⟩
  have sorted : SortedByTime [e, ⟨1, monthly, some 2678400000000000, none⟩] := by
    simp [e, SortedByTime, Entry.before]
  have member : e ∈ [⟨1, monthly, some 2678400000000000, none⟩, e] := by simp
  have starts : e.id ∈ ids (runDue SpecSchedule.nextTime 86400000000000
    [e, ⟨1, monthly, some 2678400000000000, none⟩]).1 := by
    decide +kernel
  have recent : year (86400000000000 / 1000000000) ≤ year (since 2 [.begin 0] / 1000000000 + 1) + 5 := by decide +kernel
  have accepted' : parse (fun _ => some ()) (fun _ => none) "0 0 * * *".toList = .ok (.spec e.schedule none) := accepted
  exact (wake_matches words accepted' run (.swap _ _ _) sorted member recent).mp starts

end Wake

end Crontab
