import HomelabDaemon.Strings

/-!
# Image updates

The check of one image against its registry. An answer is none when the command fails or prints something else
than the JSON that the check decodes; absent fields of the JSON are empty.
-/

namespace HomelabDaemon.Updates
open Strings

structure UpdateInfo where
  hasUpdate : Bool := false
  currentVersion : Str := []
  remoteVersion : Str := []
  localID : Str := []
  remoteID : Str := []
  deriving DecidableEq

abbrev Labels := String → Str

structure PodmanImageInspect where
  digest : Str
  repoDigests : List Str
  labels : Labels
  configLabels : Labels

structure RawEntry where
  digest : Str
  architecture : String
  os : String

structure SkopeoRawManifest where
  mediaType : Str
  manifests : List RawEntry
  configDigest : Str
  digest : Str

/-- The answers of podman and of both calls of skopeo. -/
structure Answers where
  inspect : Option (List PodmanImageInspect)
  raw : Option SkopeoRawManifest
  skopeo : Option Labels

def fallback : UpdateInfo := { hasUpdate := false, localID := "unknown".toList, remoteID := "unknown".toList }

def orElse (v fallback : Str) : Str := if v = [] then fallback else v

def shortID (digest : Str) : Str :=
  (match cut [':'] digest with
    | some (_, hex) => hex
    | none => digest).take 12

def remoteDigest (raw : SkopeoRawManifest) : Str :=
  if contains raw.mediaType "manifest.list".toList then
    let amd64 := raw.manifests.find? fun m => m.architecture = "amd64" ∧ m.os = "linux"
    orElse ((amd64.map (·.digest)).getD []) ((raw.manifests.head?.map (·.digest)).getD [])
  else orElse raw.configDigest raw.digest

def checkSingleImage (a : Answers) : UpdateInfo :=
  match a.inspect with
  | none | some [] => fallback
  | some (image :: _) => match a.raw with
    | none => fallback
    | some raw =>
      let remote := remoteDigest raw
      if remote = [] then fallback
      else
        let remoteVersion := match a.skopeo with
          | some labels => orElse (labels "org.opencontainers.image.version") (labels "version")
          | none => []
        let known := contains ([' '].intercalate image.repoDigests) remote
        { hasUpdate := !known
          currentVersion := orElse (image.configLabels "org.opencontainers.image.version") (image.labels "version")
          remoteVersion
          localID := if known then shortID remote else shortID image.digest
          remoteID := shortID remote }

structure Digest where
  hex : Str
  digits : ∀ c ∈ hex, c.isDigit = true ∨ c ∈ ['a', 'b', 'c', 'd', 'e', 'f']
  sized : hex.length = 64
  deriving DecidableEq

def Digest.text (d : Digest) : Str := ['s', 'h', 'a', '2', '5', '6', ':'] ++ d.hex

structure Entry where
  digest : Digest
  architecture : String
  os : String

/-- The manifest kinds; the media type of an OCI document may be absent. -/
inductive Kind where
  | dockerList (entries : List Entry)
  | ociIndex (typed : Bool) (entries : List Entry)
  | dockerImage (config : Digest)
  | ociImage (typed : Bool) (config : Digest)

/-- What a registry has under a tag, with the digest of the document. -/
structure Registry where
  digest : Digest
  kind : Kind

def Entry.raw (e : Entry) : RawEntry := { digest := e.digest.text, architecture := e.architecture, os := e.os }

/-- What skopeo prints of the document, which does not name its own digest. -/
def Registry.raw (r : Registry) : SkopeoRawManifest :=
  match r.kind with
  | .dockerList entries =>
    { mediaType := "application/vnd.docker.distribution.manifest.list.v2+json".toList
      manifests := entries.map Entry.raw, configDigest := [], digest := [] }
  | .ociIndex typed entries =>
    { mediaType := if typed then "application/vnd.oci.image.index.v1+json".toList else []
      manifests := entries.map Entry.raw, configDigest := [], digest := [] }
  | .dockerImage config =>
    { mediaType := "application/vnd.docker.distribution.manifest.v2+json".toList
      manifests := [], configDigest := config.text, digest := [] }
  | .ociImage typed config =>
    { mediaType := if typed then "application/vnd.oci.image.manifest.v1+json".toList else []
      manifests := [], configDigest := config.text, digest := [] }

def amd64 (entries : List Entry) : Option Digest :=
  (entries.find? fun e => e.architecture = "amd64" ∧ e.os = "linux").map (·.digest)

/-- The manifest that the registry serves for linux/amd64. -/
def Registry.served (r : Registry) : Option Digest :=
  match r.kind with
  | .dockerList entries | .ociIndex _ entries => amd64 entries
  | .dockerImage _ | .ociImage _ _ => some r.digest

/-- A repository's name, which has no digest in it. -/
structure Repository where
  name : Str
  plain : ∀ d : Digest, ¬ d.text <:+: name

/-- An image in the local store, which its manifest identifies, with the index that it was pulled by. -/
structure LocalImage where
  manifest : Digest
  index : Option Digest
  references : List (Repository × Digest)
  listed : ∀ d, (∃ repo, (repo, d) ∈ references) ↔ d = manifest ∨ some d = index
  labels : Labels
  configLabels : Labels

def LocalImage.inspect (image : LocalImage) : PodmanImageInspect :=
  { digest := image.manifest.text
    repoDigests := image.references.map fun r => r.1.name ++ '@' :: r.2.text
    labels := image.labels
    configLabels := image.configLabels }

def answers (image : LocalImage) (r : Registry) (labels : Labels) : Answers :=
  { inspect := some [image.inspect], raw := some r.raw, skopeo := some labels }

/-- There is an update exactly when the local image is not the served one. -/
def DetectsUpdate (image : LocalImage) (r : Registry) : Prop :=
  ∀ labels d, r.served = some d → (checkSingleImage (answers image r labels)).hasUpdate = decide (image.manifest ≠ d)

/-- A list has another digest than its served manifest; an index is right for the served image only; an image
is compared by the digest of its configuration. -/
def Comparable (image : LocalImage) (r : Registry) : Prop :=
  ∀ d, r.served = some d → match r.kind with
    | .dockerList _ => image.index = some d → image.manifest = d
    | .ociIndex _ _ => image.manifest = d
    | .dockerImage config | .ociImage _ config =>
      (config = image.manifest ∨ some config = image.index) ↔ image.manifest = d

/-! ### Digests in the local list -/

namespace Digest
variable (d : Digest)

theorem text_ne_nil : d.text ≠ [] := List.append_ne_nil_of_left_ne_nil (by decide) _

theorem text_inj {d e : Digest} (same : d.text = e.text) : d = e := by
  cases d
  cases e
  congr
  exact List.append_cancel_left same

theorem text_length : d.text.length = 71 := by
  rw [text, List.length_append, d.sized]
  rfl

theorem fresh {c : Char} (other : c ∉ ['s', 'h', 'a', '2', '5', '6', ':'] ∧ c.isDigit = false ∧
    c ∉ ['a', 'b', 'c', 'd', 'e', 'f']) :
    c ∉ d.text := by
  rw [text, List.mem_append, not_or]
  refine ⟨other.1, fun member => ?_⟩
  rcases d.digits c member with digit | letter
  · rw [other.2.1] at digit
    cases digit
  · exact other.2.2 letter

theorem infix_text (e : Digest) : d.text <:+: e.text ↔ d = e := by
  refine ⟨fun inside => ?_, ?_⟩
  · have same : d.text = e.text := inside.eq_of_length (d.text_length.trans e.text_length.symm)
    exact text_inj same
  · rintro rfl
    exact List.infix_rfl

end Digest

theorem known_iff (image : LocalImage) (d : Digest) :
    contains ([' '].intercalate image.inspect.repoDigests) d.text = true ↔ d = image.manifest ∨
    some d = image.index := by
  have space : ' ' ∉ d.text := d.fresh (by decide)
  have at_ : '@' ∉ d.text := d.fresh (by decide)
  rw [contains_iff, infix_intercalate d.text_ne_nil space, ← image.listed]
  simp only [LocalImage.inspect, List.mem_map, exists_exists_and_eq_and, infix_append_fresh at_, Digest.infix_text]
  refine ⟨?_, fun ⟨repo, member⟩ => ⟨_, member, .inr rfl⟩⟩
  rintro ⟨⟨repo, e⟩, member, inside | rfl⟩
  · exact absurd inside (repo.plain d)
  · exact ⟨repo, member⟩

section Check
variable {image : LocalImage} {r : Registry} {labels : Labels}

theorem hasUpdate_of_digest {d : Digest} (remote : remoteDigest r.raw = d.text) :
    (checkSingleImage (answers image r labels)).hasUpdate = decide (¬ (d = image.manifest ∨ some d = image.index)) := by
  rw [checkSingleImage, answers]
  dsimp only
  rw [remote, if_neg d.text_ne_nil]
  dsimp only
  rw [decide_not]
  exact congrArg not (Bool.eq_iff_iff.mpr ((known_iff image d).trans decide_eq_true_iff.symm))

theorem hasUpdate_of_none (remote : remoteDigest r.raw = []) :
    (checkSingleImage (answers image r labels)).hasUpdate = false := by
  rw [checkSingleImage, answers]
  dsimp only
  rw [remote, if_pos rfl]
  rfl

theorem remote_dockerList {entries : List Entry} {d : Digest} (kind : r.kind = .dockerList entries)
    (served : amd64 entries = some d) : remoteDigest r.raw = d.text := by
  obtain ⟨e, found, rfl⟩ := Option.map_eq_some_iff.mp served
  have listed : contains "application/vnd.docker.distribution.manifest.list.v2+json".toList "manifest.list".toList =
    true := by
    decide
  have inRaw : (entries.map Entry.raw).find? (fun m => decide (m.architecture = "amd64" ∧ m.os = "linux")) =
    some e.raw := by
    rw [List.find?_map]
    exact congrArg (Option.map Entry.raw) found
  rw [remoteDigest, Registry.raw, kind]
  dsimp only
  rw [listed, if_pos rfl, inRaw]
  exact if_neg e.digest.text_ne_nil

theorem remote_ociIndex {typed : Bool} {entries : List Entry} (kind : r.kind = .ociIndex typed entries) :
    remoteDigest r.raw = [] := by
  have other : ∀ typed : Bool, contains (if typed then "application/vnd.oci.image.index.v1+json".toList else [])
      "manifest.list".toList = false := by decide
  have same := other typed
  rw [remoteDigest, Registry.raw, kind]
  dsimp only
  rw [same]
  rfl

theorem remote_image {config : Digest} (kind : r.kind = .dockerImage config ∨
    ∃ typed, r.kind = .ociImage typed config) :
    remoteDigest r.raw = config.text := by
  have docker : contains "application/vnd.docker.distribution.manifest.v2+json".toList "manifest.list".toList =
    false := by
    decide
  have oci : ∀ typed : Bool, contains (if typed then "application/vnd.oci.image.manifest.v1+json".toList else [])
      "manifest.list".toList = false := by decide
  have first : orElse config.text [] = config.text := if_neg config.text_ne_nil
  rcases kind with kind | ⟨typed, kind⟩
  · rw [remoteDigest, Registry.raw, kind]
    dsimp only
    rw [docker, if_neg Bool.false_ne_true, first]
  · rw [remoteDigest, Registry.raw, kind]
    dsimp only
    rw [oci typed, if_neg Bool.false_ne_true, first]

theorem right_iff {d : Digest} (served : r.served = some d) :
    (checkSingleImage (answers image r labels)).hasUpdate = decide (image.manifest ≠ d) ↔
      match r.kind with
      | .dockerList _ => image.index = some d → image.manifest = d
      | .ociIndex _ _ => image.manifest = d
      | .dockerImage config | .ociImage _ config =>
        (config = image.manifest ∨ some config = image.index) ↔ image.manifest = d := by
  have same : ∀ known : Prop, [Decidable known] →
      (decide (¬ known) = decide (image.manifest ≠ d) ↔ (known ↔ image.manifest = d)) :=
    fun known _ => decide_eq_decide.trans not_iff_not
  cases kind : r.kind with
  | dockerList entries =>
    rw [Registry.served, kind] at served
    rw [hasUpdate_of_digest (remote_dockerList kind served), same]
    dsimp only
    rw [eq_comm (a := d), eq_comm (a := some d)]
    exact ⟨fun known listed => known.mp (.inr listed), fun named => ⟨fun known => known.elim id named, .inl⟩⟩
  | ociIndex typed entries =>
    rw [hasUpdate_of_none (remote_ociIndex kind)]
    simp
  | dockerImage config => rw [hasUpdate_of_digest (remote_image (.inl kind)), same]
  | ociImage typed config => rw [hasUpdate_of_digest (remote_image (.inr ⟨typed, kind⟩)), same]

end Check

/-- For every kind of manifest, the images for which the check is exact. -/
theorem detects_iff (image : LocalImage) (r : Registry) : DetectsUpdate image r ↔ Comparable image r :=
  ⟨fun detects d served => (right_iff served).mp (detects (fun _ => []) d served),
    fun comparable _ d served => (right_iff served).mpr (comparable d served)⟩

namespace Demo

def repeated (c : Char) (digit : c.isDigit = true) : Digest where
  hex := List.replicate 64 c
  digits _ member := .inl ((List.eq_of_mem_replicate member).symm ▸ digit)
  sized := List.length_replicate

def manifest : Digest := repeated '1' rfl

def config : Digest := repeated '2' rfl

def app : Repository where
  name := "docker.io/library/app".toList
  plain _ inside := by
    have fits := inside.length_le
    rw [Digest.text_length] at fits
    revert fits
    decide

/-- The image that the registry serves, pulled by its manifest. -/
def pulled : LocalImage where
  manifest
  index := none
  references := [(app, manifest)]
  listed d := by simp [eq_comm]
  labels _ := []
  configLabels _ := []

def registry : Registry := { digest := manifest, kind := .dockerImage config }

end Demo

theorem served_image_has_update : ¬ ∀ image r, DetectsUpdate image r := by
  intro detects
  have right := (right_iff rfl).mp (detects Demo.pulled Demo.registry (fun _ => []) Demo.manifest rfl)
  rcases right.mpr rfl with same | listed
  · exact absurd (congrArg (fun d => d.hex.head?) same) (by decide)
  · cases listed

end HomelabDaemon.Updates
