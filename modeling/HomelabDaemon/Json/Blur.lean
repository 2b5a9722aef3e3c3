import HomelabDaemon.Json.Stream

/-!
# Readers up to their strings

Two readers that differ only inside strings take the same steps. Of the keys only those without a closing brace
are told apart.
-/

namespace Json

def blurKey (key : String) : String := if '}' ∈ key.toList then "\x7d" else key

mutual

def Value.blur : Value → Value
  | .null => .null
  | .bool b => .bool b
  | .number text => .number text
  | .string _ => .string ""
  | .array _ => .array []
  | .object members => .object (blurMembers members)

def blurMembers : List (String × Value) → List (String × Value)
  | [] => []
  | (key, v) :: members => (blurKey key, v.blur) :: blurMembers members

end

def Lexeme.blur (l : Lexeme) : Lexeme := if '}' ∈ l.text then { text := ['}'] } else l

def Frame.blur : Frame → Frame
  | .array _ => .array []
  | .object members => .object (blurMembers members)
  | .member members key => .member (blurMembers members) (blurKey key)

def Mode.blur : Mode → Mode
  | .value => .value
  | .valueOrEnd => .valueOrEnd
  | .key => .key
  | .keyOrEnd => .keyOrEnd
  | .colon name => .colon (blurKey name)
  | .comma => .comma
  | .string true l spot => .string true l.blur spot
  | .string false _ spot => .string false {} spot
  | .number numeral text => .number numeral text
  | .literal word read => .literal word read
  | .done v => .done v.blur

def Reader.blur (r : Reader) : Reader where
  stack := r.stack.map Frame.blur
  mode := r.mode.blur

theorem blurKey_blur (key : String) : blurKey (blurKey key) = blurKey key := by
  unfold blurKey
  split
  · rfl
  · rfl

mutual

theorem Value.blur_blur (v : Value) : v.blur.blur = v.blur := by
  match v with
  | .null => rfl
  | .bool b => rfl
  | .number text => rfl
  | .string s => rfl
  | .array items => rfl
  | .object members =>
    rw [Value.blur, Value.blur, blurMembers_blur members]

theorem blurMembers_blur (members : List (String × Value)) :
    blurMembers (blurMembers members) = blurMembers members := by
  match members with
  | [] => rfl
  | (key, v) :: members =>
    rw [blurMembers, blurMembers, blurKey_blur, Value.blur_blur v, blurMembers_blur members]

end

theorem blurMembers_append (members members' : List (String × Value)) :
    blurMembers (members ++ members') = blurMembers members ++ blurMembers members' := by
  induction members with
  | nil => rfl
  | cons member members ih => rw [List.cons_append, blurMembers, blurMembers, ih, List.cons_append]

theorem blurMembers_map (members : List (String × Value)) :
    blurMembers members = members.map (Prod.map blurKey Value.blur) := by
  induction members with
  | nil => rfl
  | cons member members ih =>
    rw [blurMembers, ih, List.map_cons]
    rfl

/-! ### Strings -/

namespace Lexeme

theorem blur_brace {l : Lexeme} (brace : '}' ∈ l.text) : l.blur = { text := ['}'] } := if_pos brace

theorem blur_blur (l : Lexeme) : l.blur.blur = l.blur := by
  unfold blur
  split
  · rfl
  · rfl

theorem mem_settled {l : Lexeme} (brace : '}' ∈ l.text) : '}' ∈ l.settled := by
  unfold settled
  split
  · exact brace
  · exact List.mem_append_left _ brace

theorem mem_add {l : Lexeme} (brace : '}' ∈ l.text) (c : Char) : '}' ∈ (l.add c).text :=
  List.mem_append_left _ (mem_settled brace)

theorem mem_addUnit {l : Lexeme} (brace : '}' ∈ l.text) (unit : Nat) : '}' ∈ (l.addUnit unit).text := by
  unfold addUnit
  split
  · split_ifs
    · exact List.mem_append_left _ brace
    · exact mem_settled brace
    · exact mem_add brace _
  · split_ifs
    · exact brace
    · exact mem_add brace _
    · exact mem_add brace _

end Lexeme

/-- Whether a string goes on, and where, does not depend on what it holds. -/
theorem Spot.step_spot (spot : Spot) (l l' : Lexeme) (c : Char) :
    (spot.step l c).map Prod.snd = (spot.step l' c).map Prod.snd := by
  unfold Spot.step
  cases spot with
  | plain =>
    dsimp only
    split_ifs <;> rfl
  | escaped =>
    dsimp only
    split_ifs
    · rfl
    · rw [Option.map_map, Option.map_map]
      rfl
  | hex digits =>
    cases hexValue c with
    | none => rfl
    | some digit =>
      dsimp only [Option.bind_eq_bind, Option.bind_some]
      split <;> rfl

theorem Spot.step_brace {spot spot' : Spot} {l l' : Lexeme} {c : Char} (brace : '}' ∈ l.text)
    (stepped : spot.step l c = some (l', spot')) : '}' ∈ l'.text := by
  unfold Spot.step at stepped
  cases spot with
  | plain =>
    dsimp only at stepped
    split_ifs at stepped
    · cases stepped
      exact brace
    · cases stepped
      exact Lexeme.mem_add brace c
  | escaped =>
    dsimp only at stepped
    split_ifs at stepped
    · cases stepped
      exact brace
    · obtain ⟨plain, _, same⟩ := Option.map_eq_some_iff.mp stepped
      cases same
      exact Lexeme.mem_add brace plain
  | hex digits =>
    obtain ⟨digit, _, stepped⟩ := Option.bind_eq_some_iff.mp stepped
    split at stepped
    · cases stepped
      exact Lexeme.mem_addUnit brace _
    · cases stepped
      exact brace

theorem Spot.step_blur (spot : Spot) (l : Lexeme) (c : Char) :
    (spot.step l c).map (Prod.map Lexeme.blur id) = (spot.step l.blur c).map (Prod.map Lexeme.blur id) := by
  by_cases brace : '}' ∈ l.text
  · have same := spot.step_spot l l.blur c
    have brace' : '}' ∈ l.blur.text := by
      rw [Lexeme.blur_brace brace]
      exact List.mem_cons_self
    cases one : spot.step l c with
    | none =>
      rw [one, Option.map_none, eq_comm, Option.map_eq_none_iff] at same
      rw [same]
    | some next =>
      rw [one, Option.map_some, eq_comm, Option.map_eq_some_iff] at same
      obtain ⟨next', other, spots⟩ := same
      rw [other, Option.map_some, Option.map_some, Prod.map, Prod.map, Lexeme.blur_brace (step_brace brace one),
        Lexeme.blur_brace (step_brace brace' other), spots]
  · rw [show l.blur = l from if_neg brace]

/-! ### Steps -/

namespace Reader

theorem value_blur (r : Reader) : r.blur.value = r.value.map Value.blur := by
  obtain ⟨stack, mode⟩ := r
  cases mode with
  | string isKey l spot => cases isKey <;> rfl
  | _ => rfl

theorem frame_blur (frame : Frame) : frame.blur.blur = frame.blur := by
  cases frame with
  | array items => rfl
  | object members => rw [Frame.blur, Frame.blur, blurMembers_blur]
  | member members key => rw [Frame.blur, Frame.blur, blurMembers_blur, blurKey_blur]

theorem stack_blur (stack : List Frame) : (stack.map Frame.blur).map Frame.blur = stack.map Frame.blur := by
  rw [List.map_map]
  exact List.map_congr_left fun frame _ => frame_blur frame

theorem moved_blur (r : Reader) (mode : Mode) : blur { r with mode := mode } = blur { r.blur with mode := mode } := by
  simp only [blur, stack_blur]

theorem push_blur (r : Reader) (frame : Frame) (mode : Mode) :
    (r.push frame mode).map blur = (r.blur.push frame mode).map blur := by
  unfold push
  rw [show r.blur.stack.length = r.stack.length from List.length_map _]
  split_ifs
  · simp only [Option.map_some, blur, List.map_cons, stack_blur]
  · rfl

theorem deliver_blur (v : Value) (stack : List Frame) :
    (deliver v stack).blur = (deliver v.blur (stack.map Frame.blur)).blur := by
  match stack with
  | [] => simp only [List.map_nil, deliver, blur, Mode.blur, Value.blur_blur]
  | .array items :: stack => simp only [List.map_cons, Frame.blur, deliver, blur, stack_blur]
  | .object members :: stack =>
    simp only [List.map_cons, Frame.blur, deliver, blur, stack_blur, blurMembers_blur]
  | .member members key :: stack =>
    simp only [List.map_cons, Frame.blur, deliver, blur, stack_blur, blurMembers_append, blurMembers_blur, blurMembers,
      blurKey_blur, Value.blur_blur]

theorem deliver_alike {v w : Value} {stack stack' : List Frame} (values : v.blur = w.blur)
    (frames : stack.map Frame.blur = stack'.map Frame.blur) : (deliver v stack).blur = (deliver w stack').blur := by
  rw [deliver_blur, values, frames, ← deliver_blur]

theorem begins_blur (r : Reader) (c : Char) : (r.begins c).map blur = (r.blur.begins c).map blur := by
  unfold begins
  split_ifs
  · exact push_blur r _ _
  · exact push_blur r _ _
  · exact congrArg some (moved_blur r _)
  · exact congrArg some (moved_blur r _)
  · exact congrArg some (moved_blur r _)
  · exact congrArg some (moved_blur r _)
  · rw [Option.map_map, Option.map_map]
    exact congrArg (fun f => (Numeral.first c).map f) (funext fun numeral => moved_blur r _)

theorem mode_blur (mode : Mode) : mode.blur.blur = mode.blur := by
  cases mode with
  | colon name => exact congrArg Mode.colon (blurKey_blur name)
  | string isKey l spot =>
    cases isKey with
    | false => rfl
    | true => exact congrArg (Mode.string true · spot) l.blur_blur
  | done v => exact congrArg Mode.done v.blur_blur
  | _ => rfl

theorem blur_blur (r : Reader) : r.blur.blur = r.blur := by
  simp only [blur, stack_blur, mode_blur]

section Between
variable {c : Char} (inked : ¬ isSpace c = true)
include inked

theorem between_array (items : List Value) (stack : List Frame) (mode : Mode) :
    between { stack := .array items :: stack, mode := mode } c =
      if c = ',' then some { stack := .array items :: stack, mode := .value }
      else if c = ']' then some (deliver (.array items) stack)
      else none := if_neg inked

theorem between_object (members : List (String × Value)) (stack : List Frame) (mode : Mode) :
    between { stack := .object members :: stack, mode := mode } c =
      if c = ',' then some { stack := .object members :: stack, mode := .key }
      else if c = '}' then some (deliver (.object members) stack)
      else none := if_neg inked

theorem step_colon (members : List (String × Value)) (stack : List Frame) (name : String) :
    step { stack := .object members :: stack, mode := .colon name } c =
      if c = ':' then some { stack := .member members name :: stack, mode := .value } else none := if_neg inked

end Between

theorem between_blur (r : Reader) (c : Char) : (r.between c).map blur = (r.blur.between c).map blur := by
  by_cases blank : isSpace c = true
  · unfold between
    rw [if_pos blank, if_pos blank, Option.map_some, Option.map_some, blur_blur]
  obtain ⟨stack, mode⟩ := r
  match stack with
  | [] => exact congrArg (Option.map blur) ((if_neg blank).trans (if_neg blank).symm)
  | .member members key :: stack => exact congrArg (Option.map blur) ((if_neg blank).trans (if_neg blank).symm)
  | .array items :: stack =>
    rw [between_array blank, blur, List.map_cons, Frame.blur, between_array blank]
    split_ifs
    · exact congrArg some (moved_blur { stack := .array items :: stack, mode := mode } .value)
    · exact congrArg some (deliver_alike rfl (stack_blur stack).symm)
    · rfl
  | .object members :: stack =>
    rw [between_object blank, blur, List.map_cons, Frame.blur, between_object blank]
    split_ifs
    · exact congrArg some (moved_blur { stack := .object members :: stack, mode := mode } .key)
    · exact congrArg some (deliver_alike (Value.blur_blur (.object members)).symm (stack_blur stack).symm)
    · rfl

theorem blurKey_settled (l : Lexeme) : blurKey (String.ofList l.settled) = blurKey (String.ofList l.blur.settled) := by
  by_cases brace : '}' ∈ l.text
  · have settles : '}' ∈ (String.ofList l.settled).toList := by
      rw [String.toList_ofList]
      exact Lexeme.mem_settled brace
    rw [Lexeme.blur_brace brace, blurKey, if_pos settles]
    rfl
  · rw [show l.blur = l from if_neg brace]

theorem closesKey_blur (r : Reader) (l : Lexeme) :
    (r.closesString true l).blur = (r.blur.closesString true l.blur).blur := by
  simp only [closesString, blur, if_true, Mode.blur, stack_blur, blurKey_settled l]

theorem closesText_blur (r : Reader) (l l' : Lexeme) :
    (r.closesString false l).blur = (r.blur.closesString false l').blur :=
  deliver_alike rfl (stack_blur r.stack).symm

theorem step_blur (r : Reader) (c : Char) : (r.step c).map blur = (r.blur.step c).map blur := by
  obtain ⟨stack, mode⟩ := r
  have waits : blur { stack := stack, mode := mode } = blur (blur { stack := stack, mode := mode }) :=
    (blur_blur _).symm
  have begun := begins_blur { stack := stack, mode := mode } c
  have went := between_blur { stack := stack, mode := mode } c
  have moved := moved_blur { stack := stack, mode := mode }
  cases mode with
  | value =>
    unfold step
    dsimp only [blur, Mode.blur]
    split_ifs
    · exact congrArg some waits
    · exact begun
  | valueOrEnd =>
    unfold step
    dsimp only [blur, Mode.blur]
    split_ifs
    · exact congrArg some waits
    · exact went
    · exact begun
  | key =>
    unfold step
    dsimp only [blur, Mode.blur]
    split_ifs
    · exact congrArg some waits
    · exact congrArg some (moved _)
    · rfl
  | keyOrEnd =>
    unfold step
    dsimp only [blur, Mode.blur]
    split_ifs
    · exact congrArg some waits
    · exact went
    · exact congrArg some (moved _)
    · rfl
  | colon name =>
    by_cases blank : isSpace c = true
    · have here : step { stack := stack, mode := .colon name } c = some _ := if_pos blank
      have there : step (blur { stack := stack, mode := .colon name }) c = some _ := if_pos blank
      rw [here, there]
      exact congrArg some waits
    · match stack with
      | [] => exact congrArg (Option.map blur) ((if_neg blank).trans (if_neg blank).symm)
      | .array items :: stack => exact congrArg (Option.map blur) ((if_neg blank).trans (if_neg blank).symm)
      | .member members key :: stack => exact congrArg (Option.map blur) ((if_neg blank).trans (if_neg blank).symm)
      | .object members :: stack =>
        rw [step_colon blank, blur, List.map_cons, Frame.blur, Mode.blur, step_colon blank]
        split_ifs
        · simp only [Option.map_some, blur, List.map_cons, Frame.blur, stack_blur, blurMembers_blur, blurKey_blur]
        · rfl
  | comma => exact went
  | string isKey l spot =>
    cases isKey with
    | false =>
      have through (stack : List Frame) (l : Lexeme) :
          ((spot.step l c).map fun next => { stack := stack, mode := .string false next.1 next.2 : Reader }).map blur =
            ((spot.step l c).map Prod.snd).map fun spot =>
              { stack := stack.map Frame.blur, mode := .string false {} spot } := by
        rw [Option.map_map, Option.map_map]
        rfl
      unfold step
      dsimp only [blur, Mode.blur]
      split_ifs
      · exact congrArg some (closesText_blur _ l {})
      · rw [through, through, stack_blur, spot.step_spot l {} c]
    | true =>
      have through (stack : List Frame) (l : Lexeme) :
          ((spot.step l c).map fun next => { stack := stack, mode := .string true next.1 next.2 : Reader }).map blur =
            ((spot.step l c).map (Prod.map Lexeme.blur id)).map fun next =>
              { stack := stack.map Frame.blur, mode := .string true next.1 next.2 } := by
        rw [Option.map_map, Option.map_map]
        rfl
      unfold step
      dsimp only [blur, Mode.blur]
      split_ifs
      · exact congrArg some (closesKey_blur _ l)
      · rw [through, through, stack_blur, spot.step_blur l c]
  | number numeral text =>
    unfold step
    dsimp only [blur, Mode.blur]
    cases numeral.next c with
    | some next => exact congrArg some (moved _)
    | none =>
      dsimp only
      split_ifs
      · rw [between_blur, deliver_alike (w := .number text) rfl (stack_blur stack).symm, ← between_blur]
      · rfl
  | literal word read =>
    unfold step
    dsimp only [blur, Mode.blur]
    split_ifs
    · rfl
    · exact congrArg some (deliver_alike rfl (stack_blur stack).symm)
    · exact congrArg some (moved _)
  | done v =>
    unfold step
    dsimp only [blur, Mode.blur]
    split_ifs
    · exact congrArg some waits
    · rfl

end Reader
end Json
