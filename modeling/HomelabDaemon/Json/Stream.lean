import HomelabDaemon.Json.Machine

/-!
# A stream of values

A decoder reads one value after another, with white space before each, and leaves off at the first character
that no value goes on with.
-/

namespace Json
namespace Reader

/-- The value, once it is read. -/
def value (r : Reader) : Option Value :=
  match r.mode with
  | .done v => some v
  | _ => none

/-- The value that ends first, and the text behind it. -/
def readValue (r : Reader) : List Char → Option (Value × List Char)
  | [] => none
  | c :: s => (r.step c).bind fun r' => match r'.value with
    | some v => some (v, s)
    | none => r'.readValue s

variable {r r' : Reader} {c : Char} {b s t : List Char} {v : Value}

theorem readValue_stuck (stuck : r.step c = none) : r.readValue (c :: s) = none := by
  rw [readValue, stuck, Option.bind_none]

theorem readValue_done (stepped : r.step c = some r') (done : r'.value = some v) :
    r.readValue (c :: s) = some (v, s) := by
  rw [readValue, stepped, Option.bind_some, done]

theorem readValue_on (stepped : r.step c = some r') (open' : r'.value = none) :
    r.readValue (c :: s) = r'.readValue s := by
  rw [readValue, stepped, Option.bind_some, open']

/-- The first character of what is read ends the value, or the value goes on. -/
theorem readValue_cons (read : r.readValue (c :: s) = some (v, t)) :
    ∃ r', r.step c = some r' ∧ (r'.value = some v ∧ s = t ∨ r'.value = none ∧ r'.readValue s = some (v, t)) := by
  obtain ⟨r', stepped, read⟩ := Option.bind_eq_some_iff.mp read
  refine ⟨r', stepped, ?_⟩
  split at read
  · rename_i w done
    cases read
    exact .inl ⟨done, rfl⟩
  · rename_i unfinished
    exact .inr ⟨unfinished, read⟩

theorem readValue_append (read : r.readValue s = some (v, t)) (more : List Char) :
    r.readValue (s ++ more) = some (v, t ++ more) := by
  induction s generalizing r with
  | nil => cases read
  | cons c s ih =>
    obtain ⟨r', stepped, ⟨done, rfl⟩ | ⟨unfinished, read⟩⟩ := readValue_cons read
    · exact readValue_done stepped done
    · rw [List.cons_append, readValue_on stepped unfinished]
      exact ih read

theorem readValue_length (read : r.readValue s = some (v, t)) : t.length < s.length := by
  induction s generalizing r with
  | nil => cases read
  | cons c s ih =>
    rw [List.length_cons]
    obtain ⟨r', _, ⟨_, rfl⟩ | ⟨_, read⟩⟩ := readValue_cons read
    · omega
    · have shorter := ih read
      omega

theorem readValue_blank (blank : ∀ c ∈ b, isSpace c = true) (s : List Char) :
    readValue {} (b ++ s) = readValue {} s := by
  induction b with
  | nil => rfl
  | cons c b ih =>
    have waits : step {} c = some {} := if_pos (blank c List.mem_cons_self)
    rw [List.cons_append, readValue_on waits rfl]
    exact ih fun c' member => blank c' (List.mem_cons_of_mem c member)

end Reader
end Json
