import HomelabDaemon.NixOwned

/-!
# The first activation

`merge-config` on a host without services.yaml, and on one whose file cannot be read or parsed. An error of
the library is a value that other errors may wrap.
-/

namespace HomelabDaemon
open Yaml

namespace Bootstrap
open LostUpdate

inductive Errno where
  | noEntry | permission | isDirectory | io
  deriving DecidableEq

def Errno.text : Errno → String
  | noEntry => "no such file or directory"
  | permission => "permission denied"
  | isDirectory => "is a directory"
  | io => "input/output error"

inductive ErrorValue where
  | path (op path : String) (errno : Errno)
  | message (text : String)
  /-- `fmt.Errorf` with `%w`. -/
  | wrapped (text : String) (cause : ErrorValue)

/-- `os.IsNotExist` looks into an error of the file system, and not through a wrapping. -/
def ErrorValue.isNotExist : ErrorValue → Bool
  | path _ _ errno => errno = .noEntry
  | message _ | wrapped _ _ => false

/-- The value that `loadConfig` returns as this error, where `cause` is what reading or parsing returned. -/
def loadErrorValue (cause : ErrorValue) : LoadError → ErrorValue
  | .read text | .parse text => .wrapped text cause
  | error => .message error.text

theorem isNotExist_value (cause : ErrorValue) (error : LoadError) :
    (loadErrorValue cause error).isNotExist = isNotExist error := by
  cases error <;> rfl

/-- How `merge-config` ends, and what is at the path of the configuration then. -/
structure Ended where
  success : Bool
  file : Except Errno Text

def readText (path : String) (file : Except Errno Text) : Except String Text :=
  file.mapError fun errno => "open " ++ path ++ ": " ++ errno.text

/-- A run over what is at the two paths, where `saved` is what writing and renaming the new file returns. -/
def mergeConfig (S : Setup) (file defaults : Except Errno Text) (saved : Except String Unit) : Ended :=
  if S.path = "" ∨ S.defaultPath = "" then { success := false, file }
  else match handleMergeConfig (S.load (readText S.path file))
      (loadConfig S.unmarshal S.defaultPath (readText S.defaultPath defaults)) with
    | .exits => { success := false, file }
    | .upToDate => { success := true, file }
    | .saves cfg => match saved with
      | .error _ => { success := false, file }
      | .ok _ => { success := true, file := .ok (saveText S.marshal cfg) }

def Accepts (S : Setup) (defaults : Except Errno Text) (default : Config) : Prop :=
  loadConfig S.unmarshal S.defaultPath (readText S.defaultPath defaults) = .ok default

structure Activates (S : Setup) (file defaults : Except Errno Text) (saved : Except String Unit) : Prop where
  /-- Without a file, the defaults become the file. -/
  first : file = .error .noEntry → ∀ default, Accepts S defaults default →
    (mergeConfig S file defaults saved).success = true ∧
    S.load (readText S.path (mergeConfig S file defaults saved).file) = .ok (migrate default).1
  /-- Any other error ends the run and changes nothing. -/
  other : file ≠ .error .noEntry → ∀ error, S.load (readText S.path file) = .error error →
    (mergeConfig S file defaults saved).success = false ∧ (mergeConfig S file defaults saved).file = file

section Run
variable {S : Setup} {file defaults : Except Errno Text} {saved : Except String Unit}

/-- A configuration that does not load is never replaced. -/
theorem mergeConfig_unloaded {error : LoadError} (failed : S.load (readText S.path file) = .error error) :
    mergeConfig S file defaults saved = { success := false, file } := by
  unfold mergeConfig
  split
  · rfl
  · rw [failed]
    rfl

theorem not_activates_missing {default : Config} (accepted : Accepts S defaults default) :
    ¬ Activates S (.error .noEntry) defaults saved := by
  intro activates
  have success := (activates.first rfl default accepted).1
  rw [mergeConfig_unloaded rfl] at success
  cases success

/-- A run activates unless there is no file and the defaults would be accepted. -/
theorem activates_iff (S : Setup) (file defaults : Except Errno Text) (saved : Except String Unit) :
    Activates S file defaults saved ↔ ¬ (file = .error .noEntry ∧ ∃ default, Accepts S defaults default) := by
  refine ⟨?_, fun known => ⟨?_, ?_⟩⟩
  · rintro activates ⟨rfl, default, accepted⟩
    exact not_activates_missing accepted activates
  · exact fun missing default accepted => absurd ⟨missing, default, accepted⟩ known
  · intro _ error failed
    rw [mergeConfig_unloaded failed]
    exact ⟨rfl, rfl⟩

end Run

theorem first_activation_fails : ¬ ∀ S file defaults saved, Activates S file defaults saved := by
  intro activates
  have accepted : Accepts library (.ok NixOwned.generated) NixOwned.generatedCfg :=
    NixOwned.generated_loads library.defaultPath
  exact not_activates_missing accepted (activates library _ _ (.ok ()))

end Bootstrap
end HomelabDaemon
