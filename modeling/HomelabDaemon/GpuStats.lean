import HomelabDaemon.Json.Commas
import HomelabDaemon.State

/-!
# GPU statistics

The samples of `intel_gpu_top` in the file that a sidecar leaves, and the last good value, which stands in when the
file has none. Numbers are read and passed on, and only whether they are zero is looked at.
-/

namespace HomelabDaemon.Gpu
open Json Strings StateFile

structure Float64 (F : Type) where
  zero : F
  isZero : F → Bool
  parse : Str → Option F

structure GpuStats (F : Type) where
  renderBusy : F
  videoBusy : F
  freqMHz : F
  powerW : F
  rc6Pct : F
  available : Bool
  errMsg : Str
  deriving DecidableEq

/-- `engines` is a map, with what was written last in front. -/
structure GpuTopJSON (F : Type) where
  frequencyActual : F
  engines : List (String × F)
  powerGPU : F
  rc6Value : F
  deriving DecidableEq

namespace Float64
variable {F : Type} (num : Float64 F)

def decodeFloat (x : F) : Value → Option F
  | .null => some x
  | .number text => num.parse text
  | _ => none

/-- A structure whose only field is a number. -/
def decodeField (name : String) (x : F) : Value → Option F
  | .null => some x
  | .object members => members.foldlM (fun x member =>
      if foldName member.1 = foldName name then num.decodeFloat x member.2 else some x) x
  | _ => none

def decodeEngine (engines : List (String × F)) (member : String × Value) : Option (List (String × F)) :=
  (num.decodeField "busy" num.zero member.2).map fun busy => (member.1, busy) :: engines

def decodeEngines (engines : List (String × F)) : Value → Option (List (String × F))
  | .null => some []
  | .object members => members.foldlM num.decodeEngine engines
  | _ => none

/-- A member of another name is skipped. -/
def decodeMember (raw : GpuTopJSON F) (member : String × Value) : Option (GpuTopJSON F) :=
  if foldName member.1 = foldName "frequency" then
    (num.decodeField "actual" raw.frequencyActual member.2).map fun actual => { raw with frequencyActual := actual }
  else if foldName member.1 = foldName "engines" then
    (num.decodeEngines raw.engines member.2).map fun engines => { raw with engines := engines }
  else if foldName member.1 = foldName "power" then
    (num.decodeField "GPU" raw.powerGPU member.2).map fun gpu => { raw with powerGPU := gpu }
  else if foldName member.1 = foldName "rc6" then
    (num.decodeField "value" raw.rc6Value member.2).map fun value => { raw with rc6Value := value }
  else some raw

def zeroRaw : GpuTopJSON F where
  frequencyActual := num.zero
  engines := []
  powerGPU := num.zero
  rc6Value := num.zero

def decodeRaw : Value → Option (GpuTopJSON F)
  | .null => some num.zeroRaw
  | .object members => members.foldlM num.decodeMember num.zeroRaw
  | _ => none

/-- The next value of the stream, and what follows it. -/
def decode (s : Str) : Option (GpuTopJSON F × Str) := do
  let (v, rest) ← Reader.readValue {} s
  let raw ← num.decodeRaw v
  return (raw, rest)

theorem decode_eq_some {s rest : Str} {raw : GpuTopJSON F} :
    num.decode s = some (raw, rest) ↔ ∃ v, Reader.readValue {} s = some (v, rest) ∧ num.decodeRaw v = some raw := by
  refine ⟨fun decodes => ?_, ?_⟩
  · obtain ⟨⟨v, rest'⟩, read, both⟩ := Option.bind_eq_some_iff.mp decodes
    obtain ⟨_, unmarshalled, same⟩ := Option.bind_eq_some_iff.mp both
    cases same
    exact ⟨v, read, unmarshalled⟩
  · rintro ⟨v, read, unmarshalled⟩
    simp only [decode, read, Option.bind_eq_bind, Option.bind_some, unmarshalled]
    rfl

/-! ### Polling -/

def isHeader (raw : GpuTopJSON F) : Bool :=
  num.isZero raw.frequencyActual && num.isZero raw.powerGPU && raw.engines.isEmpty

/-- The loop over the stream, which decodes at most `n` values. -/
def lastRecord : Nat → Str → Option (GpuTopJSON F) → Option (GpuTopJSON F)
  | 0, _, last => last
  | n + 1, s, last => match num.decode s with
    | none => last
    | some (raw, rest) => lastRecord n rest (if num.isHeader raw then last else some raw)

def stats (last : GpuTopJSON F) : GpuStats F where
  renderBusy := (last.engines.lookup "Render/3D").getD num.zero
  videoBusy := (last.engines.lookup "Video").getD num.zero
  freqMHz := last.frequencyActual
  powerW := last.powerGPU
  rc6Pct := last.rc6Value
  available := true
  errMsg := []

def failed (errMsg : Str) : GpuStats F where
  renderBusy := num.zero
  videoBusy := num.zero
  freqMHz := num.zero
  powerW := num.zero
  rc6Pct := num.zero
  available := false
  errMsg := errMsg

end Float64

def trimPrefix (s : Str) (c : Char) : Str := if s.head? = some c then s.tail else s

def trimSuffix (s : Str) (c : Char) : Str := if s.getLast? = some c then s.dropLast else s

def stripJSONNoise (b : Str) : Str :=
  let s := trimSpace b
  let s := trimPrefix s '['
  let s := trimSuffix s ']'
  let s := replaceAll s ['}', ',', '\n', '{'] ['}', '\n', '{']
  replaceAll s ['}', ',', ' ', '{'] ['}', ' ', '{']

def statsPath (getenv : Str) : Str := if getenv = [] then "/run/intel-gpu-stats/gpu.json".toList else getenv

/-- What is returned, and the last good value from then on. -/
def pollGPU {F : Type} (num : Float64 F) (getenv : Str) (readFile : Str → Except Str Str) (lastGoodGPU : GpuStats F) :
    GpuStats F × GpuStats F :=
  let path := statsPath getenv
  match readFile path with
  | .error err =>
    if lastGoodGPU.available then (lastGoodGPU, lastGoodGPU)
    else (num.failed ("read ".toList ++ path ++ ": ".toList ++ err), lastGoodGPU)
  | .ok data =>
    let s := stripJSONNoise data
    match num.lastRecord s.length s none with
    | none =>
      if lastGoodGPU.available then (lastGoodGPU, lastGoodGPU)
      else (num.failed ("no valid JSON record in ".toList ++ path), lastGoodGPU)
    | some last => (num.stats last, num.stats last)

variable {F : Type}

theorem foldName_blurKey {name : String} (plain : '}' ∉ foldName name) (key : String) :
    foldName (blurKey key) = foldName name ↔ foldName key = foldName name := by
  unfold blurKey
  split
  · rename_i brace
    have folded : '}' ∈ foldName key := List.mem_map.mpr ⟨'}', brace, by decide⟩
    refine ⟨fun same => ?_, fun same => ?_⟩
    · rw [← same] at plain
      exact absurd (by decide) plain
    · rw [same] at folded
      exact absurd folded plain
  · exact Iff.rfl

theorem foldlM_map_hom {A B : Type} {f : A → B → Option A} {φ : A → A} {ψ : B → B}
    (hom : ∀ a b, f (φ a) (ψ b) = (f a b).map φ) (a : A) (items : List B) :
    (items.map ψ).foldlM f (φ a) = (items.foldlM f a).map φ := by
  induction items generalizing a with
  | nil => rfl
  | cons b items ih =>
    rw [List.map_cons, List.foldlM_cons, List.foldlM_cons, hom]
    cases f a b with
    | none => rfl
    | some a' => exact ih a'

namespace Float64

theorem decodeFloat_blur (num : Float64 F) (x : F) (v : Value) : num.decodeFloat x v.blur = num.decodeFloat x v := by
  cases v <;> rfl

theorem decodeField_blur (num : Float64 F) {name : String} (plain : '}' ∉ foldName name) (x : F) (v : Value) :
    num.decodeField name x v.blur = num.decodeField name x v := by
  cases v with
  | object members =>
    rw [Value.blur, decodeField, decodeField, blurMembers_map, List.foldlM_map]
    simp only [Prod.map, foldName_blurKey plain, decodeFloat_blur]
  | _ => rfl

theorem decodeEngine_blur (num : Float64 F) (engines : List (String × F)) (member : String × Value) :
    num.decodeEngine (engines.map (Prod.map blurKey id)) (Prod.map blurKey Value.blur member) =
      (num.decodeEngine engines member).map (List.map (Prod.map blurKey id)) := by
  have plain : '}' ∉ foldName "busy" := by decide
  rw [decodeEngine, decodeEngine, Prod.map, decodeField_blur num plain, Option.map_map]
  rfl

theorem decodeEngines_blur (num : Float64 F) (engines : List (String × F)) (v : Value) :
    num.decodeEngines (engines.map (Prod.map blurKey id)) v.blur =
      (num.decodeEngines engines v).map (List.map (Prod.map blurKey id)) := by
  cases v with
  | object members =>
    rw [Value.blur, decodeEngines, decodeEngines, blurMembers_map]
    exact foldlM_map_hom num.decodeEngine_blur engines members
  | _ => rfl

end Float64

/-- A sample without what its strings hold. -/
def GpuTopJSON.blur (raw : GpuTopJSON F) : GpuTopJSON F := { raw with engines := raw.engines.map (Prod.map blurKey id) }

namespace Float64

theorem decodeMember_blur (num : Float64 F) (raw : GpuTopJSON F) (member : String × Value) :
    num.decodeMember raw.blur (Prod.map blurKey Value.blur member) =
    (num.decodeMember raw member).map GpuTopJSON.blur := by
  have frequency : '}' ∉ foldName "frequency" := by decide
  have engines : '}' ∉ foldName "engines" := by decide
  have power : '}' ∉ foldName "power" := by decide
  have rc6 : '}' ∉ foldName "rc6" := by decide
  have actual : '}' ∉ foldName "actual" := by decide
  have gpu : '}' ∉ foldName "GPU" := by decide
  have value : '}' ∉ foldName "value" := by decide
  unfold decodeMember
  simp only [Prod.map, foldName_blurKey frequency, foldName_blurKey engines, foldName_blurKey power,
    foldName_blurKey rc6,
    decodeField_blur num actual, decodeField_blur num gpu, decodeField_blur num value]
  split_ifs
  · rw [Option.map_map]
    rfl
  · rw [show raw.blur.engines = raw.engines.map (Prod.map blurKey id) from rfl, decodeEngines_blur, Option.map_map,
      Option.map_map]
    rfl
  · rw [Option.map_map]
    rfl
  · rw [Option.map_map]
    rfl
  · rfl

theorem decodeRaw_blur (num : Float64 F) (v : Value) :
    num.decodeRaw v.blur = (num.decodeRaw v).map GpuTopJSON.blur := by
  cases v with
  | object members =>
    rw [Value.blur, decodeRaw, decodeRaw, blurMembers_map]
    exact foldlM_map_hom num.decodeMember_blur num.zeroRaw members
  | _ => rfl

theorem isHeader_blur (num : Float64 F) (raw : GpuTopJSON F) : num.isHeader raw.blur = num.isHeader raw := by
  unfold isHeader GpuTopJSON.blur
  rw [List.isEmpty_map]

theorem eq_blurKey {name : String} (plain : '}' ∉ name.toList) (key : String) : name = blurKey key ↔ name = key := by
  unfold blurKey
  split
  · rename_i brace
    refine ⟨?_, ?_⟩
    · rintro rfl
      exact absurd (by decide) plain
    · rintro rfl
      exact absurd brace plain
  · exact Iff.rfl

theorem lookup_blur {name : String} (plain : '}' ∉ name.toList) (engines : List (String × F)) :
    (engines.map (Prod.map blurKey id)).lookup name = engines.lookup name := by
  induction engines with
  | nil => rfl
  | cons engine engines ih =>
    obtain ⟨key, busy⟩ := engine
    rw [List.map_cons, Prod.map, List.lookup_cons, List.lookup_cons, ih]
    by_cases found : name = key
    · rw [beq_iff_eq.mpr found, beq_iff_eq.mpr ((eq_blurKey plain key).mpr found)]
      rfl
    · rw [beq_eq_false_iff_ne.mpr found, beq_eq_false_iff_ne.mpr (fun same => found ((eq_blurKey plain key).mp same))]

theorem stats_blur (num : Float64 F) (raw : GpuTopJSON F) : num.stats raw.blur = num.stats raw := by
  have render : '}' ∉ "Render/3D".toList := by decide
  have video : '}' ∉ "Video".toList := by decide
  unfold stats GpuTopJSON.blur
  rw [lookup_blur render, lookup_blur video]

/-- Values that differ in their strings only decode to samples that show the same. -/
theorem decodeRaw_alike (num : Float64 F) {v w : Value} (alike : v.blur = w.blur) {raw : GpuTopJSON F}
    (decodes : num.decodeRaw v = some raw) :
    ∃ raw', num.decodeRaw w = some raw' ∧ num.isHeader raw' = num.isHeader raw ∧ num.stats raw' = num.stats raw := by
  have same : (num.decodeRaw w).map GpuTopJSON.blur = (num.decodeRaw v).map GpuTopJSON.blur := by
    rw [← decodeRaw_blur, ← decodeRaw_blur, alike]
  rw [decodes, Option.map_some, Option.map_eq_some_iff] at same
  obtain ⟨raw', decodes', blurs⟩ := same
  refine ⟨raw', decodes', ?_, ?_⟩
  · rw [← isHeader_blur, blurs, isHeader_blur]
  · rw [← stats_blur, blurs, stats_blur]

end Float64

end HomelabDaemon.Gpu
