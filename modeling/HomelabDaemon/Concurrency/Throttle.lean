import Mathlib.Data.List.Basic

/-!
# Throttled samples

Of a source that may be asked at every event, those events are sampled that come at least a gap after the last sample.
-/

namespace Concurrency.Throttle

variable {α : Type}

/-- Without a sample so far the next one is due. -/
def due (gap : Int) (last : Option Int) (now : Int) : Bool := last.all fun last => decide (gap ≤ now - last)

section Samples
variable (gap : Int) (time : α → Int)

/-- The events that are sampled. Both lists have the newest first. -/
def samples : List α → List α
  | [] => []
  | e :: earlier =>
    if due gap ((samples earlier).head?.map time) (time e) then e :: samples earlier else samples earlier

end Samples

variable {gap : Int} {time : α → Int} {e : α} {events earlier : List α}

theorem samples_due (isDue : due gap ((samples gap time earlier).head?.map time) (time e) = true) :
    samples gap time (e :: earlier) = e :: samples gap time earlier := by
  rw [samples, if_pos isDue]

theorem samples_early (early : due gap ((samples gap time earlier).head?.map time) (time e) = false) :
    samples gap time (e :: earlier) = samples gap time earlier := by
  rw [samples, if_neg (by rw [early]; exact Bool.false_ne_true)]

/-- Any two samples are a gap apart. -/
theorem samples_spaced (positive : 0 ≤ gap) (events : List α) :
    (samples gap time events).Pairwise fun newer older => time older + gap ≤ time newer := by
  induction events with
  | nil => exact List.Pairwise.nil
  | cons e earlier ih =>
    cases isDue : due gap ((samples gap time earlier).head?.map time) (time e) with
    | false =>
      rw [samples_early isDue]
      exact ih
    | true =>
      rw [samples_due isDue]
      refine List.pairwise_cons.mpr ⟨fun older member => ?_, ih⟩
      cases before : samples gap time earlier with
      | nil =>
        rw [before] at member
        cases member
      | cons last rest =>
        rw [before] at member ih isDue
        have apart : gap ≤ time e - time last := of_decide_eq_true isDue
        rcases List.mem_cons.mp member with rfl | old
        · omega
        · have further := (List.pairwise_cons.mp ih).1 older old
          omega

/-- At an event the last sample is younger than the gap. -/
theorem samples_recent (positive : 0 < gap) (e : α) (earlier : List α) :
    ∃ last, (samples gap time (e :: earlier)).head? = some last ∧ time e < time last + gap := by
  cases isDue : due gap ((samples gap time earlier).head?.map time) (time e) with
  | true =>
    rw [samples_due isDue]
    exact ⟨e, rfl, by omega⟩
  | false =>
    rw [samples_early isDue]
    cases before : samples gap time earlier with
    | nil =>
      rw [before] at isDue
      cases isDue
    | cons last rest =>
      rw [before] at isDue
      have close : ¬ gap ≤ time e - time last := of_decide_eq_false isDue
      exact ⟨last, rfl, by omega⟩

/-- The samples are apart, and the last is young. -/
structure Paced (gap : Int) (time : α → Int) (now : Int) (samples : List α) : Prop where
  spaced : samples.Pairwise fun newer older => time older + gap ≤ time newer
  recent : ∃ last, samples.head? = some last ∧ now < time last + gap

theorem samples_paced (positive : 0 < gap) (e : α) (earlier : List α) :
    Paced gap time (time e) (samples gap time (e :: earlier)) where
  spaced := samples_spaced (by omega) (e :: earlier)
  recent := samples_recent positive e earlier

end Concurrency.Throttle
