import HomelabDaemon.Host

/-!
# The sections that Nix owns

qui, vpn and notify are generated from the system configuration only. A merge brings qui up to date;
the other two it leaves as the last writer left them, and a PATCH leaves them out.
-/

namespace HomelabDaemon
open Concurrency Program Machine Yaml

namespace NixOwned
open LostUpdate PatchFrame RoundTrip

/-- The singleton sections of services.yaml that are generated. -/
structure Sections where
  qui : QuiConfig
  vpn : VPNConfig
  notify : NotifyConfig
  deriving DecidableEq

def sections (cfg : Config) : Sections := ⟨cfg.qui, cfg.vpn, cfg.notify⟩

section Converges
variable {S : Setup} {file defaults : Text}

/-- The file after a run of `merge-config` whose writes succeed; a run that exits leaves none. -/
def mergeConfig (S : Setup) (file defaults : Text) : Option Text :=
  match handleMergeConfig (S.load (.ok file)) (loadConfig S.unmarshal S.defaultPath (.ok defaults)) with
  | .saves cfg => some (saveText S.marshal cfg)
  | .upToDate => some file
  | .exits => none

/-- What a run saves is read back. -/
def ReadsBack (S : Setup) (file defaults : Text) : Prop :=
  ∀ cfg, handleMergeConfig (S.load (.ok file)) (loadConfig S.unmarshal S.defaultPath (.ok defaults)) = .saves cfg →
    S.unmarshal (saveText S.marshal cfg) = .ok cfg

/-- A run that returns successfully leaves the sections of the defaults. -/
def Converges (S : Setup) (file defaults : Text) : Prop :=
  ∀ default result, loadConfig S.unmarshal S.defaultPath (.ok defaults) = .ok default →
    mergeConfig S file defaults = some result →
    ∃ cfg, S.load (.ok result) = .ok cfg ∧ sections cfg = sections default

theorem merged_sections (existing default : Config) :
    sections (merged existing default).1 = ⟨default.qui, existing.vpn, existing.notify⟩ := by
  have migrated : ∀ cfg : Config, sections (migrate cfg).1 = sections cfg := by
    intro cfg
    unfold migrate
    split <;> rfl
  unfold merged
  exact migrated _

/-- What the file holds after a run that returns successfully. -/
theorem mergeConfig_sections {existing default : Config} (readsBack : ReadsBack S file defaults)
    (loaded : S.load (.ok file) = .ok existing)
    (loadedDefault : loadConfig S.unmarshal S.defaultPath (.ok defaults) = .ok default) :
    ∃ result cfg, mergeConfig S file defaults = some result ∧ S.load (.ok result) = .ok cfg ∧
      sections cfg = ⟨default.qui, existing.vpn, existing.notify⟩ := by
  unfold mergeConfig
  cases outcome : handleMergeConfig (S.load (.ok file)) (loadConfig S.unmarshal S.defaultPath (.ok defaults)) with
  | saves cfg =>
    have reads := readsBack cfg outcome
    rw [loaded, loadedDefault] at outcome
    obtain ⟨_, _, same, same', rfl⟩ := handleMergeConfig_saves outcome
    obtain rfl := Except.ok.inj same
    obtain rfl := Except.ok.inj same'
    have valid := merged_valid (load_valid loaded) (load_valid loadedDefault)
    exact ⟨_, _, rfl, load_ok reads valid, merged_sections existing default⟩
  | upToDate =>
    rw [loaded, loadedDefault] at outcome
    have qui : existing.qui = default.qui := by
      unfold handleMergeConfig at outcome
      simp only at outcome
      split at outcome
      · cases outcome
      · rename_i unmodified
        unfold merged at unmodified
        simp only [Bool.or_eq_true, decide_eq_true_eq, not_or, not_not] at unmodified
        exact unmodified.1.2
    refine ⟨file, existing, rfl, loaded, ?_⟩
    rw [← qui]
    rfl
  | exits =>
    rw [loaded, loadedDefault] at outcome
    unfold handleMergeConfig at outcome
    simp only at outcome
    split at outcome <;> cases outcome

/-- Whatever has written the file: vpn and notify stay as they are. -/
theorem converges_iff (readsBack : ReadsBack S file defaults) : Converges S file defaults ↔
    ∀ existing default, S.load (.ok file) = .ok existing → loadConfig S.unmarshal S.defaultPath (.ok defaults) =
    .ok default →
      existing.vpn = default.vpn ∧ existing.notify = default.notify := by
  constructor
  · intro converges existing default loaded loadedDefault
    obtain ⟨result, cfg, merges, loads, found⟩ := mergeConfig_sections readsBack loaded loadedDefault
    obtain ⟨cfg', loads', same⟩ := converges default result loadedDefault merges
    rw [loads] at loads'
    obtain rfl := Except.ok.inj loads'
    rw [found] at same
    obtain ⟨_, vpn, notify⟩ := Sections.mk.inj same
    exact ⟨vpn, notify⟩
  · intro agree default result loadedDefault merges
    cases loaded : S.load (.ok file) with
    | error e =>
      unfold mergeConfig at merges
      rw [loaded] at merges
      cases merges
    | ok existing =>
      obtain ⟨vpn, notify⟩ := agree existing default loaded loadedDefault
      obtain ⟨result', cfg, merges', loads, found⟩ := mergeConfig_sections readsBack loaded loadedDefault
      rw [merges] at merges'
      obtain rfl := Option.some.inj merges'
      refine ⟨cfg, loads, ?_⟩
      rw [found, vpn, notify]
      rfl

end Converges

/-! ### Schedules -/

def generated : Text :=
  "version: 1\nservices:\n  - unit: a.service\n    restart: no\nvpn:\n  enabled: true\n  interface: wg0\n".toList

def generatedCfg : Config :=
  { version := 1, vpn := { enabled := true, interface := "wg0" }, services := [{ unit := "a.service", restart := "no" }] }

theorem generated_loads (path : String) : loadConfig library.unmarshal path (.ok generated) = .ok generatedCfg := by
  have reads : library.unmarshal generated = .ok generatedCfg := by
    decide +kernel
  exact load_ok reads (checkServices_eq_none.mp (show checkServices 0 generatedCfg.services = none by decide))

/-- A second run with the same defaults finds everything in place. -/
theorem converges_iff_again : Converges library generated generated := by
  have upToDate : ReadsBack library generated generated := by
    intro cfg saves
    unfold Setup.load at saves
    rw [generated_loads, generated_loads] at saves
    have same : handleMergeConfig (.ok generatedCfg) (.ok generatedCfg) = .upToDate := by decide
    rw [same] at saves
    cases saves
  refine (converges_iff upToDate).mpr fun existing default loaded loadedDefault => ?_
  unfold Setup.load at loaded
  rw [generated_loads] at loaded loadedDefault
  obtain rfl := Except.ok.inj loaded
  obtain rfl := Except.ok.inj loadedDefault
  exact ⟨rfl, rfl⟩

/-- The file has no VPN, and a run finds nothing to do. -/
def dropped (s : Chronicle × Place) : Bool :=
  match library.load (.ok s.2.world.world.file) with
  | .ok cfg => !cfg.vpn.enabled && decide (handleMergeConfig (.ok cfg) (.ok generatedCfg) = .upToDate)
  | .error _ => false

/-- A PATCH leaves the VPN out, and the next activation does not bring it back. -/
theorem vpn_dropped : ¬ ∀ (S : Setup) (w : World) (tmp : Option Text) (ticks : Nat) (hist : Chronicle) (c : Place)
    (defaults : Text),
    (host S).Run Machine.anyStep (begun S w tmp ticks) hist c → ReadsBack S c.world.world.file defaults →
    Converges S c.world.world.file defaults := by
  intro claim
  obtain ⟨hist, c, run, shown⟩ := host_schedule (fun _ _ _ => true) { cfg := generatedCfg, file := generated }
    [.arrive (.api (.patchStorage (some ⟨[]⟩))), .go 2 {} 8] dropped (by decide +kernel)
  unfold dropped at shown
  cases loads : library.load (.ok c.world.world.file) with
  | error e =>
    rw [loads] at shown
    cases shown
  | ok cfg =>
    rw [loads] at shown
    obtain ⟨absent, idle⟩ := Bool.and_eq_true_iff.mp shown
    have upToDate : handleMergeConfig (.ok cfg) (.ok generatedCfg) = .upToDate := of_decide_eq_true idle
    have defaults : loadConfig library.unmarshal library.defaultPath (.ok generated) = .ok generatedCfg :=
      generated_loads _
    have readsBack : ReadsBack library c.world.world.file generated := by
      intro cfg' saves
      rw [loads, defaults, upToDate] at saves
      cases saves
    have merges : mergeConfig library c.world.world.file generated = some c.world.world.file := by
      unfold mergeConfig
      rw [loads, defaults, upToDate]
    obtain ⟨cfg', loads', same⟩ := claim library _ none 1 hist c generated (run.weaken fun _ _ _ _ => trivial) readsBack
      generatedCfg _ defaults merges
    rw [loads] at loads'
    obtain rfl := Except.ok.inj loads'
    have vpn := congrArg Sections.vpn same
    rw [show (sections cfg).vpn = cfg.vpn from rfl] at vpn
    rw [vpn] at absent
    cases absent

end NixOwned
end HomelabDaemon
