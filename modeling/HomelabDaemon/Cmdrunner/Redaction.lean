import HomelabDaemon.Cmdrunner.Execute

/-!
# Secrets in the log

The arguments of a record are redacted. The message is built from the arguments as they are, cut
after 99 bytes when the command line is longer than 100.
-/

namespace HomelabDaemon.Cmdrunner

namespace Redaction

theorem bytes_append (s t : String) : bytes (s ++ t) = bytes s ++ bytes t := by simp [bytes]

/-- `n` copies. -/
def copies (s : String) : Nat → String
  | 0 => ""
  | n + 1 => s ++ copies s n

theorem copies_length {s : String} (single : (bytes s).length = 1) (n : Nat) : (bytes (copies s n)).length = n := by
  induction n with
  | zero => rfl
  | succ n ih =>
    unfold copies
    rw [bytes_append, List.length_append, single, ih]
    omega

variable {keys : Finset String}

/-- The key of an argument that carries the value of a secret. -/
def secretKey (keys : Finset String) (arg : String) : Option String := (keyOf arg).filter (· ∈ keys)

theorem secretKey_eq_some {arg key : String} : secretKey keys arg = some key ↔ keyOf arg = some key ∧ key ∈ keys := by
  simp [secretKey, Option.filter_eq_some_iff]

theorem takeWhile_ended {p : Char → Bool} {l : List Char} (shorter : (l.takeWhile p).length < l.length) :
    ∃ c rest, l = l.takeWhile p ++ c :: rest ∧ p c = false := by
  induction l with
  | nil => simp at shorter
  | cons x l ih =>
    cases h : p x with
    | true =>
      rw [List.takeWhile_cons_of_pos h] at shorter ⊢
      obtain ⟨c, rest, same, ends⟩ := ih (by simpa using shorter)
      exact ⟨c, rest, by rw [List.cons_append, ← same], ends⟩
    | false =>
      rw [List.takeWhile_cons_of_neg (by simp [h])]
      exact ⟨x, l, rfl, h⟩

theorem keyOf_eq_some {arg key : String} :
    keyOf arg = some key ↔ key ≠ "" ∧ '=' ∉ key.toList ∧ ∃ value, arg = key ++ "=" ++ value := by
  constructor
  · intro h
    unfold keyOf at h
    simp only [Option.ite_none_right_eq_some, Option.some.injEq] at h
    obtain ⟨⟨shorter, nonempty⟩, rfl⟩ := h
    obtain ⟨c, rest, same, ends⟩ := takeWhile_ended shorter
    have equals : c = '=' := by simpa using ends
    refine ⟨fun empty => nonempty (by simpa using congrArg String.toList empty), fun member => ?_, String.ofList rest,
      ?_⟩
    · rw [String.toList_ofList] at member
      have before := List.mem_takeWhile_imp member
      simp at before
    · rw [equals] at same
      apply String.toList_inj.mp
      refine same.trans ?_
      simp
  · rintro ⟨nonempty, noEquals, value, rfl⟩
    have key_ : (key ++ "=" ++ value).toList.takeWhile (· ≠ '=') = key.toList := by
      rw [String.toList_append, String.toList_append, List.append_assoc, List.takeWhile_append_of_pos]
      · simp
      · intro c member
        simpa using fun equals : c = '=' => noEquals (equals ▸ member)
    unfold keyOf
    simp only [key_]
    simp [nonempty]

/-- The same argument, up to the value of a secret. -/
def Alike (keys : Finset String) (arg arg' : String) : Prop :=
  arg = arg' ∨ ∃ key, secretKey keys arg = some key ∧ secretKey keys arg' = some key

section Alike
variable {arg arg' : String}

theorem Alike.secretKey_eq (alike : Alike keys arg arg') : secretKey keys arg' = secretKey keys arg := by
  rcases alike with rfl | ⟨key, has, has'⟩
  · rfl
  · rw [has, has']

theorem Alike.plain (alike : Alike keys arg arg') (none_ : secretKey keys arg = none) : arg' = arg := by
  rcases alike with rfl | ⟨key, has, _⟩
  · rfl
  · rw [none_] at has
    cases has

theorem redact_alike (alike : Alike keys arg arg') : redact keys arg = redact keys arg' := by
  rcases alike with rfl | ⟨key, has, has'⟩
  · rfl
  · obtain ⟨at_, member⟩ := secretKey_eq_some.mp has
    obtain ⟨at_', _⟩ := secretKey_eq_some.mp has'
    simp [redact, at_, at_', member]

end Alike

/-! ### The command line -/

/-- The arguments of a command line, each behind a blank. -/
def line (args : List String) : Bytes := args.flatMap fun arg => bytes (" " ++ arg)

theorem bytes_full (b : Builder) : bytes b.full = bytes (base b.name) ++ line b.args := by
  have joined : ∀ (first : String) (args : List String),
      bytes (" ".intercalate (first :: args)) = bytes first ++ line args := by
    intro first args
    induction args generalizing first with
    | nil => simp [line]
    | cons arg args ih =>
      rw [String.intercalate_cons_cons, bytes_append, ih]
      simp [line, bytes_append]
  unfold Builder.full
  split
  · rename_i some_
    rw [← joined, String.intercalate_cons_of_ne_nil some_]
  · rename_i none_
    simp [Classical.not_not.mp none_, line]

/-- An argument whose secret is empty. -/
def erase (keys : Finset String) (arg : String) : String :=
  match secretKey keys arg with
  | some key => key ++ "="
  | none => arg

/-- The arguments up to the first value of a secret. -/
def lead (keys : Finset String) : List String → Bytes
  | [] => []
  | arg :: args =>
    match secretKey keys arg with
    | some key => bytes (" " ++ key ++ "=")
    | none => bytes (" " ++ arg) ++ lead keys args

/-- The first value of a secret stands after the cut, and even with empty secrets the line is cut. -/
def Hidden (b : Builder) : Prop :=
  (∀ arg ∈ b.args, secretKey b.secretEnvKeys arg = none) ∨
    (maxLen - 1 ≤ (bytes (base b.name) ++ lead b.secretEnvKeys b.args).length ∧
      maxLen < (bytes (base b.name) ++ line (b.args.map (erase b.secretEnvKeys))).length)

section Line
variable {arg arg' key : String} {args args' : List String}

theorem secretKey_value (h : secretKey keys arg = some key) (value : String) :
    secretKey keys (key ++ "=" ++ value) = some key := by
  obtain ⟨found, member⟩ := secretKey_eq_some.mp h
  obtain ⟨nonempty, noEquals, _⟩ := keyOf_eq_some.mp found
  exact secretKey_eq_some.mpr ⟨keyOf_eq_some.mpr ⟨nonempty, noEquals, value, rfl⟩, member⟩

theorem value_of_secretKey (h : secretKey keys arg = some key) : ∃ value, arg = key ++ "=" ++ value :=
  (keyOf_eq_some.mp (secretKey_eq_some.mp h).1).2.2

theorem line_cons : line (arg :: args) = bytes (" " ++ arg) ++ line args := rfl

theorem alike_plain (alike : List.Forall₂ (Alike keys) args args') (none_ : ∀ arg ∈ args, secretKey keys arg = none) :
    args' = args := by
  induction alike with
  | nil => rfl
  | cons first _ ih =>
    rw [first.plain (none_ _ List.mem_cons_self), ih fun arg member => none_ arg (List.mem_cons_of_mem _ member)]

theorem redact_args (alike : List.Forall₂ (Alike keys) args args') :
    args.map (redact keys) = args'.map (redact keys) := by
  induction alike with
  | nil => rfl
  | cons same _ ih => rw [List.map_cons, List.map_cons, redact_alike same, ih]

/-- Two lines that differ in secrets only agree up to the first of them. -/
theorem line_lead (alike : List.Forall₂ (Alike keys) args args') :
    ∃ rest rest', line args = lead keys args ++ rest ∧ line args' = lead keys args ++ rest' := by
  induction alike with
  | nil => exact ⟨[], [], rfl, rfl⟩
  | @cons arg arg' args args' same _ ih =>
    cases secret : secretKey keys arg with
    | some key =>
      have has' : secretKey keys arg' = some key := same.secretKey_eq.trans secret
      obtain ⟨value, rfl⟩ := value_of_secretKey secret
      obtain ⟨value', rfl⟩ := value_of_secretKey has'
      refine ⟨bytes value ++ line args, bytes value' ++ line args', ?_, ?_⟩
      · simp [line_cons, lead, secret, bytes_append]
      · simp [line_cons, lead, secret, bytes_append]
    | none =>
      have plain : arg' = arg := same.plain secret
      obtain ⟨rest, rest', split_, split_'⟩ := ih
      refine ⟨rest, rest', ?_, ?_⟩
      · simp [line_cons, lead, secret, split_]
      · simp [line_cons, lead, secret, split_', plain]

theorem line_erase (alike : List.Forall₂ (Alike keys) args args') :
    (line (args.map (erase keys))).length ≤ (line args').length := by
  induction alike with
  | nil => exact Nat.le_refl _
  | @cons arg arg' args args' same _ ih =>
    have shorter : (bytes (" " ++ erase keys arg)).length ≤ (bytes (" " ++ arg')).length := by
      unfold erase
      cases secret : secretKey keys arg with
      | some key =>
        obtain ⟨value, rfl⟩ := value_of_secretKey (same.secretKey_eq.trans secret)
        simp only [bytes_append, List.length_append]
        omega
      | none =>
        rw [same.plain secret]
    rw [List.map_cons, line_cons, line_cons, List.length_append, List.length_append]
    omega

end Line

/-! ### The summary -/

theorem summary_short {b : Builder} (short : (bytes b.full).length ≤ maxLen) : b.summary = bytes b.full := by
  unfold Builder.summary
  rw [if_neg (by omega)]

theorem summary_long {b : Builder} (long : maxLen < (bytes b.full).length) :
    b.summary = (bytes b.full).take (maxLen - 1) ++ bytes "…" := by
  unfold Builder.summary
  rw [if_pos long]

theorem summary_differs {b b' : Builder} (short : (bytes b.full).length ≤ maxLen)
    (long : maxLen < (bytes b'.full).length) : b.summary ≠ b'.summary := by
  intro same
  have lengths := congrArg List.length same
  have mark : (bytes "…").length = 3 := rfl
  rw [summary_short short, summary_long long, List.length_append, List.length_take, mark] at lengths
  unfold maxLen at *
  omega

theorem summary_same {b b' : Builder} (sameName : b'.name = b.name)
    (alike : List.Forall₂ (Alike b.secretEnvKeys) b.args b'.args) (hidden : Hidden b) : b.summary = b'.summary := by
  rcases hidden with none_ | ⟨late, long⟩
  · have same : b'.args = b.args := alike_plain alike none_
    unfold Builder.summary Builder.full
    rw [same, sameName]
  · obtain ⟨rest, rest', split_, split_'⟩ := line_lead alike
    have shortest := line_erase alike
    have self : (line (b.args.map (erase b.secretEnvKeys))).length ≤ (line b.args).length :=
      line_erase (List.forall₂_same.mpr fun _ _ => .inl rfl)
    have full := bytes_full b
    have full' := bytes_full b'
    rw [List.length_append] at long
    rw [summary_long (by rw [full, List.length_append]; omega),
      summary_long (by rw [full', List.length_append, sameName]; omega), full, full', split_, split_', sameName,
      ← List.append_assoc, ← List.append_assoc, List.take_append_of_le_length late, List.take_append_of_le_length late]

def Builder.withSecrets (b : Builder) (args env : List String) : Builder := { b with args := args, env := env }

def Host.writing (host : Host) (out err : String) : Host := { host with stdoutBuf := out, stderrBuf := err }

/-- The builders differ in the values of secrets only. -/
def SameButSecrets (b b' : Builder) : Prop :=
  ∃ args env, b' = Builder.withSecrets b args env ∧ List.Forall₂ (Alike b.secretEnvKeys) b.args args ∧
    List.Forall₂ (Alike b.secretEnvKeys) b.env env

/-- Runs of both that end alike, whatever the processes write, leave the same records. -/
def SameRecords (b b' : Builder) : Prop :=
  ∀ (host : Host) (out err : String), (b.run host).logged = (b'.run (Host.writing host out err)).logged ∧
    (Spawned.wait ⟨b⟩ host).logged = (Spawned.wait ⟨b'⟩ (Host.writing host out err)).logged

section Runs
variable (b : Builder) (args env : List String) (host : Host) (out err : String)

/-- The record of an end whose arguments are those of the builder behind `front`, or none at all. -/
theorem logResult_same (alike : List.Forall₂ (Alike b.secretEnvKeys) b.args args) (hidden : Hidden b)
    {res res' : Result} {err : Option String} (front : List String)
    (shown : (res.args = [] ∧ res'.args = []) ∨ (res.args = front ++ b.args ∧ res'.args = front ++ args))
    (cmd : res'.cmd = res.cmd) (exitCode : res'.exitCode = res.exitCode) (duration : res'.duration = res.duration)
    (cancelled : res'.cancelled = res.cancelled) :
    b.logResult res err = (Builder.withSecrets b args env).logResult res' err := by
  have summaries : b.summary = (Builder.withSecrets b args env).summary := summary_same rfl alike hidden
  have shownSame : res.args.map (redact b.secretEnvKeys) = res'.args.map (redact b.secretEnvKeys) := by
    rcases shown with ⟨nothing, nothing'⟩ | ⟨behind, behind'⟩
    · rw [nothing, nothing']
    · rw [behind, behind', List.map_append, List.map_append, redact_args alike]
  unfold Builder.logResult
  rw [cmd, exitCode, duration, cancelled, summaries, shownSame]
  rfl

theorem environment_same :
    (∃ stop, b.environment host = .error stop ∧
      (Builder.withSecrets b args env).environment (Host.writing host out err) = .error stop) ∨
    ∃ own own', b.environment host = .ok own ∧
      (Builder.withSecrets b args env).environment (Host.writing host out err) = .ok own' := by
  unfold Builder.environment
  by_cases other : b.impersonates = true
  · have other' : (Builder.withSecrets b args env).impersonates = true := other
    rw [if_pos other, if_pos other']
    unfold Host.lookupField
    have asked : (Host.writing host out err).lookup (Builder.withSecrets b args env).user = host.lookup b.user := rfl
    rw [asked]
    cases host.lookup b.user with
    | error e => exact .inl ⟨_, rfl, rfl⟩
    | ok u => exact .inr ⟨_, _, rfl, rfl⟩
  · have other' : ¬ (Builder.withSecrets b args env).impersonates = true := other
    rw [if_neg other, if_neg other']
    refine .inr ?_
    split <;> split <;> exact ⟨_, _, rfl, rfl⟩

/-- Both builders put together the same command, up to arguments and environment. -/
theorem runCommand_same :
    (∃ stop, b.runCommand host = .error stop ∧
      (Builder.withSecrets b args env).runCommand (Host.writing host out err) = .error stop) ∨
    ∃ cmd cmd', b.runCommand host = .ok cmd ∧
      (Builder.withSecrets b args env).runCommand (Host.writing host out err) = .ok cmd' ∧
      cmd'.path = cmd.path ∧ cmd'.ctx = cmd.ctx ∧ cmd'.cancelled = cmd.cancelled := by
  unfold Builder.runCommand
  have resolves : (Builder.withSecrets b args env).resolve (Host.writing host out err) =
    b.resolve host := rfl
  have credentials : (Builder.withSecrets b args env).credential (Host.writing host out err) =
    b.credential host := rfl
  rw [resolves, credentials]
  cases b.resolve host with
  | error stop => exact .inl ⟨stop, rfl, rfl⟩
  | ok path =>
    cases b.credential host with
    | error stop => exact .inl ⟨stop, rfl, rfl⟩
    | ok cred =>
      unfold Builder.command
      rcases environment_same b args env host out err with
        ⟨stop, stops, stops'⟩ | ⟨own, own', found, found'⟩
      · rw [stops, stops']
        exact .inl ⟨stop, rfl, rfl⟩
      · rw [found, found']
        exact .inr ⟨_, _, rfl, rfl, rfl, rfl, rfl⟩

theorem runError_same {cmd cmd' : Cmd} (ctx : cmd'.ctx = cmd.ctx) (cancelled : cmd'.cancelled = cmd.cancelled) :
    (Builder.withSecrets b args env).runError (Host.writing host out err) cmd' = b.runError host cmd := by
  have starts : (Host.writing host out err).start cmd' = host.start cmd := by
    unfold Host.start
    rw [ctx, cancelled]
    rfl
  unfold Builder.runError
  rw [starts]
  rfl

theorem run_same (alike : List.Forall₂ (Alike b.secretEnvKeys) b.args args) (hidden : Hidden b) :
    (b.run host).logged = ((Builder.withSecrets b args env).run (Host.writing host out err)).logged := by
  unfold Builder.run
  rcases runCommand_same b args env host out err with
    ⟨stop, stops, stops'⟩ | ⟨cmd, cmd', runs, runs', path, ctx, cancelled⟩
  · rw [stops, stops']
    cases stop with
    | panicked message => rfl
    | failed e =>
      apply List.singleton_inj.mpr
      exact logResult_same b args env alike hidden [] (.inl ⟨rfl, rfl⟩) rfl rfl rfl rfl
  · rw [runs, runs']
    simp only [runError_same b args env host out err ctx cancelled]
    cases b.runError host cmd with
    | some e =>
      apply List.singleton_inj.mpr
      refine logResult_same b args env alike hidden [cmd.path] (.inr ⟨rfl, ?_⟩) path rfl rfl rfl
      simp [path, Builder.withSecrets]
    | none =>
      have ends : (Host.writing host out err).wait = host.wait := rfl
      simp only [ends]
      cases host.wait.error with
      | some e =>
        apply List.singleton_inj.mpr
        refine logResult_same b args env alike hidden [cmd.path] (.inr ⟨rfl, ?_⟩) path rfl rfl rfl
        simp [path, Builder.withSecrets]
      | none =>
        apply List.singleton_inj.mpr
        refine logResult_same b args env alike hidden [cmd.path] (.inr ⟨rfl, ?_⟩) path rfl rfl rfl
        simp [path, Builder.withSecrets]

theorem wait_same (alike : List.Forall₂ (Alike b.secretEnvKeys) b.args args) (hidden : Hidden b) :
    (Spawned.wait ⟨b⟩ host).logged = (Spawned.wait ⟨Builder.withSecrets b args env⟩
    (Host.writing host out err)).logged := by
  apply List.singleton_inj.mpr
  have front : ∃ front, ∀ args,
      (if b.sandbox then ["srt", "--settings", "<temp>", "--", b.name] ++ args else b.name :: args) =
      front ++ args := by
    cases b.sandbox
    · exact ⟨[b.name], fun args => rfl⟩
    · exact ⟨["srt", "--settings", "<temp>", "--", b.name], fun args => rfl⟩
  obtain ⟨front, behind⟩ := front
  exact logResult_same b args env alike hidden front (.inr ⟨behind b.args, behind args⟩) rfl rfl rfl rfl

end Runs

/-! ### Secrets that show -/

/-- Another value for the first secret. -/
def refill (keys : Finset String) (value : String) : List String → List String
  | [] => []
  | arg :: args =>
    match secretKey keys arg with
    | some key => (key ++ "=" ++ value) :: args
    | none => arg :: refill keys value args

section Shows
variable {b b' : Builder} {args : List String} {value : String}

theorem alike_self : List.Forall₂ (Alike keys) args args := List.forall₂_same.mpr fun _ _ => .inl rfl

theorem refill_alike : List.Forall₂ (Alike keys) args (refill keys value args) := by
  induction args with
  | nil => exact .nil
  | cons arg args ih =>
    unfold refill
    cases secret : secretKey keys arg with
    | some key => exact .cons (.inr ⟨key, secret, secretKey_value secret value⟩) alike_self
    | none => exact .cons (.inl rfl) ih

theorem erase_alike : List.Forall₂ (Alike keys) args (args.map (erase keys)) := by
  induction args with
  | nil => exact .nil
  | cons arg args ih =>
    refine .cons ?_ ih
    unfold erase
    cases secret : secretKey keys arg with
    | some key => exact .inr ⟨key, secret, by simpa using secretKey_value secret ""⟩
    | none => exact .inl rfl

/-- Where there is a secret, its value follows the lead. -/
theorem line_refill (secret : ∃ arg ∈ args, secretKey keys arg ≠ none) :
    ∃ rest, ∀ value, line (refill keys value args) = lead keys args ++ bytes value ++ rest := by
  induction args with
  | nil =>
    obtain ⟨arg, member, _⟩ := secret
    cases member
  | cons arg args ih =>
    cases at_ : secretKey keys arg with
    | some key => exact ⟨line args, fun value => by simp [refill, lead, at_, line_cons, bytes_append]⟩
    | none =>
      obtain ⟨other, member, has⟩ := secret
      rcases List.mem_cons.mp member with rfl | member
      · exact absurd at_ has
      · obtain ⟨rest, follows⟩ := ih ⟨other, member, has⟩
        exact ⟨rest, fun value => by simp [refill, lead, at_, line_cons, follows]⟩

def quiet : Host where
  lookup _ := .error "unknown user"
  lookPath name := .ok name
  lookPathIn _ name := .ok name
  isNotExist _ := false
  createTemp := .ok "/tmp/cmdrunner-sandbox-1.json"

theorem summary_of_records (same : SameRecords b b') : b.summary = b'.summary := by
  have logged := List.singleton_inj.mp (same quiet "" "").2
  exact List.append_cancel_right (congrArg Record.message logged)

theorem withSecrets_same {args' : List String} (alike : List.Forall₂ (Alike b.secretEnvKeys) b.args args') :
    SameButSecrets b (Builder.withSecrets b args' b.env) := ⟨args', b.env, rfl, alike, alike_self⟩

/-- A secret value of 200 bytes, which starts with another byte than `x`. -/
theorem longSecret (x : UInt8) : ∃ value first more, bytes value = first :: more ∧ more.length = 199 ∧ first ≠ x := by
  by_cases other : x = 97
  · refine ⟨"b" ++ copies "b" 199, 98, bytes (copies "b" 199), ?_, copies_length rfl 199, ?_⟩
    · rw [bytes_append]
      rfl
    · rw [other]
      decide
  · refine ⟨"a" ++ copies "a" 199, 97, bytes (copies "a" 199), ?_, copies_length rfl 199, fun same => other same.symm⟩
    rw [bytes_append]
    rfl

/-- A secret whose value starts before the cut, or that may end before it, shows in the message. -/
theorem hidden_of_same (same : ∀ b', SameButSecrets b b' → SameRecords b b') : Hidden b := by
  by_contra shows
  obtain ⟨some_, early⟩ := not_or.mp shows
  have secret : ∃ arg ∈ b.args, secretKey b.secretEnvKeys arg ≠ none := by
    simpa only [not_forall, exists_prop] using some_
  obtain ⟨rest, follows⟩ := line_refill secret
  have summaries : ∀ args', List.Forall₂ (Alike b.secretEnvKeys) b.args args' →
      b.summary = (Builder.withSecrets b args' b.env).summary :=
    fun args' alike => summary_of_records (same _ (withSecrets_same alike))
  obtain ⟨value, first, more, filled, many, other⟩ :=
    longSecret ((bytes b.full).getD (bytes (base b.name) ++ lead b.secretEnvKeys b.args).length 0)
  have long' : bytes (Builder.withSecrets b (refill b.secretEnvKeys value b.args) b.env).full =
      (bytes (base b.name) ++ lead b.secretEnvKeys b.args) ++ first :: (more ++ rest) := by
    rw [bytes_full]
    simp [Builder.withSecrets, follows, filled]
  have isLong : maxLen < (bytes (Builder.withSecrets b (refill b.secretEnvKeys value b.args) b.env).full).length := by
    rw [long']
    simp only [List.length_append, List.length_cons, many]
    unfold maxLen
    omega
  have alike := summaries (refill b.secretEnvKeys value b.args) refill_alike
  by_cases short : (bytes b.full).length ≤ maxLen
  · exact summary_differs short isLong alike
  · have long : maxLen < (bytes b.full).length := by omega
    by_cases late : maxLen - 1 ≤ (bytes (base b.name) ++ lead b.secretEnvKeys b.args).length
    · -- The shortest line is not cut, and this one is.
      refine summary_differs ?_ long (summaries _ erase_alike).symm
      rw [bytes_full]
      exact Nat.le_of_not_lt fun cut => early ⟨late, cut⟩
    · -- The two cut lines differ at the first byte of the secret.
      rw [summary_long long, summary_long isLong, long'] at alike
      have cuts := List.append_cancel_right alike
      have there := congrArg (·[(bytes (base b.name) ++ lead b.secretEnvKeys b.args).length]?) cuts
      simp only [List.getElem?_take] at there
      rw [if_pos (by omega), if_pos (by omega), List.getElem?_append_right (Nat.le_refl _), Nat.sub_self] at there
      apply other
      rw [List.getD_eq_getElem?_getD, there]
      rfl

end Shows

/-- The records do not depend on the values of secrets exactly when these are hidden. -/
theorem records_iff (b : Builder) : (∀ b', SameButSecrets b b' → SameRecords b b') ↔ Hidden b := by
  refine ⟨hidden_of_same, fun hidden b' same host out err => ?_⟩
  obtain ⟨args, env, rfl, alike, _⟩ := same
  exact ⟨run_same b args env host out err alike hidden, wait_same b args env host out err alike hidden⟩

/-! ### A short command -/

def registry (token : String) : Registries where
  lookup _ := .error "unknown user"
  secretResolver := some fun name => if name = "token" then "TOKEN=" ++ token else ""

def login (token : String) : Builder :=
  { callerModule := "secrets", name := "login", args := ["TOKEN=" ++ token], env := ["TOKEN=" ++ token]
    secretEnvKeys := {"TOKEN"} }

theorem login_created (token : String) : (new "secrets" "login" ["TOKEN=" ++ token] >>= fun fresh =>
    fresh.applyAll (registry token) [.withSecret ["token"]]) = .ok (login token) := by
  have created : new "secrets" "login" ["TOKEN=" ++ token] =
    .ok { callerModule := "secrets", name := "login", args := ["TOKEN=" ++ token] } := rfl
  have key : keyOf ("TOKEN=" ++ token) = some "TOKEN" := by
    apply keyOf_eq_some.mpr
    exact ⟨by decide, by decide, token, rfl⟩
  rw [created]
  simp [bind, Except.bind, Builder.applyAll, Builder.apply, registry, Builder.withSecret, Builder.inject, key, login]

/-- The message shows the token. -/
theorem message_shows : ¬ ∀ (callerModule name : String) (args args' : List String) (reg reg' : Registries)
    (ms : List Method) (b b' : Builder), (new callerModule name args >>= fun fresh => fresh.applyAll reg ms) = .ok b →
    (new callerModule name args' >>= fun fresh => fresh.applyAll reg' ms) = .ok b' → SameButSecrets b b' →
    SameRecords b b' := by
  intro claim
  have alike : Alike {"TOKEN"} "TOKEN=a" "TOKEN=b" := .inr ⟨"TOKEN", by decide, by decide⟩
  have same : SameButSecrets (login "a") (login "b") :=
    ⟨["TOKEN=b"], ["TOKEN=b"], rfl, .cons alike .nil, .cons alike .nil⟩
  have records := claim "secrets" "login" _ _ (registry "a") (registry "b") [.withSecret ["token"]] _ _
    (login_created "a") (login_created "b") same
  have summaries : (login "a").summary = (login "b").summary := summary_of_records records
  exact absurd summaries (by decide)

end Redaction
end HomelabDaemon.Cmdrunner
