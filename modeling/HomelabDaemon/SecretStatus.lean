import HomelabDaemon.SecretResolver

/-!
# What is told about a secret

The status of a secret shows whether its file has something in it, and the first three bytes. A
value of three bytes or fewer is shown whole.
-/

namespace HomelabDaemon.SecretStatus
open SecretResolver

/-- The file of a secret that `os.Stat` finds. -/
structure File where
  content : List UInt8
  /-- Whether `os.Open` succeeds. -/
  opens : Bool := true

abbrev Files := String → Option File

structure Status where
  entry : SecretEntry
  present : Bool := false
  modifiedAt : String := ""
  preview : List UInt8 := []

/-- The three bullets behind the first bytes. -/
def bullets : List UInt8 := [0xE2, 0x80, 0xA2, 0xE2, 0x80, 0xA2, 0xE2, 0x80, 0xA2]

def secretStatus (files : Files) (e : SecretEntry) : Status :=
  match files e.runPath with
  | none => { entry := e }
  | some file =>
    if file.content.length = 0 then { entry := e }
    else if file.opens then { entry := e, present := true, preview := file.content.take 3 ++ bullets }
    else { entry := e, present := true }

/-- The loop body of `enrichWithTimestamps`. -/
def stamped (ts : String → Option String) (s : Status) : Status :=
  match ts s.entry.name with
  | some t => { s with modifiedAt := t }
  | none => s

def enrichWithTimestamps (ts : String → Option String) (statuses : List Status) :
    List Status := statuses.map (stamped ts)

inductive Response where
  | httpError (error : String) (status : Nat)
  | list (secrets : List Status) (deployPending : Bool)
  | single (s : Status)

def Response.statuses : Response → List Status
  | .httpError _ _ => []
  | .list secrets _ => secrets
  | .single s => [s]

/-- `GET /api/secrets`. -/
def listSecrets (registry : Option (List SecretEntry)) (files : Files) (ts : String → Option String) (pending : Bool) :
    Response :=
  match registry with
  | none => .httpError "failed to load secrets registry" 500
  | some entries => .list (enrichWithTimestamps ts (entries.map (secretStatus files))) pending

/-- `GET /api/secrets/{name}`. -/
def getSecret (registry : Option (List SecretEntry)) (files : Files) (name : String) : Response :=
  match registry with
  | none => .httpError "failed to load secrets registry" 500
  | some entries =>
    match entries.find? (·.name == name) with
    | some e => .single (secretStatus files e)
    | none => .httpError "secret not found" 404

/-- Both are there, and as far as a status tells the same in them. -/
inductive Alike : Option File → Option File → Prop where
  | missing : Alike none none
  | found {file file' : File} (opens : file.opens = file'.opens) (filled : file.content = [] ↔ file'.content = [])
    (start : file.content.take 3 = file'.content.take 3) : Alike (some file) (some file')

theorem secretStatus_alike {files files' : Files} {e : SecretEntry}
    (alike : Alike (files e.runPath) (files' e.runPath)) :
    secretStatus files e = secretStatus files' e := by
  unfold secretStatus
  generalize files e.runPath = file, files' e.runPath = file' at alike
  cases alike with
  | missing => rfl
  | found opens filled start => simp only [List.length_eq_zero_iff, filled, opens, start]

/-- What stands before the bullets is less than the content. -/
def Partial (files : Files) (s : Status) : Prop :=
  s.preview = [] ∨ ∃ file p, files s.entry.runPath = some file ∧ s.preview = p ++ bullets ∧ p <+: file.content ∧
    p ≠ file.content

/-- A file that shows no more than a part of it. -/
def Covered (file : Option File) : Prop := ∀ f ∈ file, f.opens = true → f.content = [] ∨ 3 < f.content.length

theorem secretStatus_entry (files : Files) (e : SecretEntry) : (secretStatus files e).entry = e := by
  unfold secretStatus
  split
  · rfl
  · split_ifs <;> rfl

theorem secretStatus_partial (files : Files) (e : SecretEntry) : Partial files (secretStatus files e) ↔
    Covered (files e.runPath) := by
  rw [Partial, secretStatus_entry, secretStatus, Covered]
  cases found : files e.runPath with
  | none => simp
  | some file =>
    simp only [Option.mem_some_iff, forall_eq', List.length_eq_zero_iff]
    split_ifs with empty opens
    · exact iff_of_true (.inl rfl) fun _ => .inl empty
    · have bullets_filled : file.content.take 3 ++ bullets ≠ [] := by simp [bullets]
      constructor
      · rintro (none_ | ⟨_, p, same, shown, _, less⟩) _
        · exact absurd none_ bullets_filled
        · right
          obtain rfl := Option.some.inj same
          by_contra short
          obtain rfl := List.append_cancel_right shown
          exact less (List.take_of_length_le (by omega))
      · intro covered
        have long := (covered opens).resolve_left empty
        refine .inr ⟨file, file.content.take 3, rfl, rfl, List.take_prefix 3 _, fun whole => ?_⟩
        have length := congrArg List.length whole
        rw [List.length_take] at length
        omega
    · exact iff_of_true (.inl rfl) fun o => absurd o opens

/-! ### Both handlers -/

section Handlers
variable {files files' : Files} {ts : String → Option String} {registry : Option (List SecretEntry)}
  {entries : List SecretEntry}
  {pending : Bool} {name : String}

theorem stamped_partial (s : Status) : Partial files (stamped ts s) ↔ Partial files s := by
  unfold stamped
  split <;> rfl

theorem listSecrets_alike (alike : ∀ path, Alike (files path) (files' path)) :
    listSecrets registry files ts pending = listSecrets registry files' ts pending := by
  unfold listSecrets
  cases registry with
  | none => rfl
  | some entries => simp only [funext fun e => secretStatus_alike (e := e) (alike e.runPath)]

theorem getSecret_alike (alike : ∀ path, Alike (files path) (files' path)) :
    getSecret registry files name = getSecret registry files' name := by
  unfold getSecret
  simp only [fun e => secretStatus_alike (e := e) (alike e.runPath)]

theorem listSecrets_tokens : (∀ s ∈ (listSecrets (some entries) files ts pending).statuses, Partial files s) ↔
    ∀ e ∈ entries, Covered (files e.runPath) := by
  simp [listSecrets, Response.statuses, enrichWithTimestamps, stamped_partial, secretStatus_partial]

theorem getSecret_tokens : (∀ s ∈ (getSecret (some entries) files name).statuses, Partial files s) ↔
    ∀ e, entries.find? (·.name == name) = some e → Covered (files e.runPath) := by
  cases found : entries.find? (·.name == name) with
  | none => simp [getSecret, found, Response.statuses]
  | some e => simp [getSecret, found, Response.statuses, secretStatus_partial]

end Handlers

/-- Both answers tell no more than the first bytes of a file, and these are a part of it where the
file is empty or longer. -/
theorem responses_partial (entries : List SecretEntry) (ts : String → Option String) (pending : Bool) (name : String) :
    (∀ files files', (∀ path, Alike (files path) (files' path)) →
      listSecrets (some entries) files ts pending = listSecrets (some entries) files' ts pending ∧
        getSecret (some entries) files name = getSecret (some entries) files' name) ∧
    (∀ files, ((∀ s ∈ (listSecrets (some entries) files ts pending).statuses, Partial files s) ↔
        ∀ e ∈ entries, Covered (files e.runPath)) ∧
      ((∀ s ∈ (getSecret (some entries) files name).statuses, Partial files s) ↔
        ∀ e, entries.find? (·.name == name) = some e → Covered (files e.runPath))) :=
  ⟨fun _ _ alike => ⟨listSecrets_alike alike, getSecret_alike alike⟩, fun _ => ⟨listSecrets_tokens, getSecret_tokens⟩⟩

/-- Two tokens that start alike get one answer, which does not give either away. -/
theorem responses_partial_tokens :
    getSecret (some [ownToken]) (fun _ => some { content := [1, 2, 3, 4] }) "TOKEN" =
        getSecret (some [ownToken]) (fun _ => some { content := [1, 2, 3, 5, 6] }) "TOKEN" ∧
      ∀ s ∈ (getSecret (some [ownToken]) (fun _ => some { content := [1, 2, 3, 4] }) "TOKEN").statuses,
        Partial (fun _ => some { content := [1, 2, 3, 4] }) s := by
  have told := responses_partial [ownToken] (fun _ => none) false "TOKEN"
  refine ⟨(told.1 _ _ fun _ => .found rfl (by decide) rfl).2, (told.2 _).2.mpr ?_⟩
  rintro _ _ _ ⟨⟩ _
  exact .inr (by decide)

/-- A number of three digits. -/
theorem pin_shown : ¬ ∀ (entries : List SecretEntry) (files : Files) (name : String),
    ∀ s ∈ (getSecret (some entries) files name).statuses, Partial files s := by
  intro claim
  have covered := getSecret_tokens.mp (claim [ownToken]
    (fun _ => some { content := [0x31, 0x32, 0x33] }) "TOKEN") ownToken
    (by decide) _ rfl rfl
  exact absurd covered (by decide)

end HomelabDaemon.SecretStatus
