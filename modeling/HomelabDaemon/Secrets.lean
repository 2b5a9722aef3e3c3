import HomelabDaemon.Concurrency.Logic
import HomelabDaemon.Strings

/-!
# Secrets that wait for a deploy

`PUT` and `DELETE` change `secrets.yaml` through sops, and set a flag in the end. A deploy builds
what nh finds when it starts, and removes the flag in the end. The flag is a file in the runtime
directory of the daemon.
-/

namespace HomelabDaemon
open Concurrency Program

namespace Secrets

/-- The values in `secrets.yaml`, by service and variable. -/
abbrev Contents := String × String → String

structure Failure where
  error : String
  output : String

/-- What a `sops set` leaves in the file; a command that fails may have written. -/
structure Sops where
  contents : Contents
  failure : Option Failure := none

structure Nh where
  lines : List String := []
  error : Option String := none

inductive Op where
  /-- The value goes to the standard input, in quotes. -/
  | sopsSet (jsonPath stdin : String)
  | chown
  | git (args : List String)
  | recordTimestamp (name : String)
  /-- True when the file is there afterwards. -/
  | writeFlag
  /-- True when the file was there and is removed. -/
  | removeFlag
  /-- What nh finds in the file. -/
  | nhStart
  | nhWait (built : Contents)

abbrev Op.Ans : Op → Type
  | .sopsSet _ _ => Sops
  | .git _ => Option Failure
  | .chown | .recordTimestamp _ => Unit
  | .writeFlag | .removeFlag => Bool
  | .nhStart => Contents
  | .nhWait _ => Nh

abbrev Prog := Program Op Op.Ans

inductive Request where
  /-- The value of the body, when the body is JSON of that type. -/
  | put (name : String) (value : Option String)
  | delete (name : String)
  | deploy

inductive StreamEvent where
  | raw (line : String)
  | typed (type message : String)

inductive Response where
  /-- The body is the JSON object with this error. -/
  | httpError (error : String) (status : Nat)
  /-- `success` and `deploy_pending`. -/
  | pending
  | stream (events : List StreamEvent)

/-- A character between quotes, as `%q` writes it; characters beyond ASCII count as printable. -/
def quotedChar (c : Char) : String :=
  match c with
  | '"' => "\\\""
  | '\\' => "\\\\"
  | '\n' => "\\n"
  | '\r' => "\\r"
  | '\t' => "\\t"
  | c =>
    if c.toNat = 0x07 then "\\a"
    else if c.toNat = 0x08 then "\\b"
    else if c.toNat = 0x0B then "\\v"
    else if c.toNat = 0x0C then "\\f"
    else if c.toNat < 0x10 then "\\x0" ++ String.ofList (Nat.toDigits 16 c.toNat)
    else if c.toNat < 0x20 || c.toNat == 0x7F then "\\x" ++ String.ofList (Nat.toDigits 16 c.toNat)
    else String.singleton c

def quoted (s : String) : String := "\"" ++ String.join (s.toList.map quotedChar) ++ "\""

def sopsSet (keyPath value : String) : Prog (Option String) :=
  match Strings.cut ['/'] keyPath.toList with
  | none => return some ("invalid secret name " ++ quoted keyPath ++ ": expected service/VAR_NAME")
  | some (service, var) => do
    let jsonPath := "[\"" ++ String.ofList service ++ "\"][\"" ++ String.ofList var ++ "\"]"
    let res ← perform (Op.sopsSet jsonPath (quoted value))
    match res.failure with
    | some failure => return some ("sops set failed: " ++ failure.error ++ "\noutput: " ++ failure.output)
    | none => do
      let _ ← perform Op.chown
      return none

section Repo
variable (resolveRepoPath : String)

def secretsYamlPath : String := resolveRepoPath ++ "/secrets/secrets.yaml"

def gitCommitAndPush (message : String) : Prog (Option String) :=
  firstSome (fun args => do
    let failure ← perform (Op.git ("-C" :: resolveRepoPath :: args))
    return failure.map fun failure =>
      "git [" ++ " ".intercalate args ++ "] failed: " ++ failure.error ++ "\noutput: " ++ failure.output)
    [["add", secretsYamlPath resolveRepoPath], ["commit", "-m", message], ["push"]]

def setDeployPending (pending : Bool) : Prog Unit := do
  if pending then do
    let _ ← perform Op.writeFlag
    return ()
  else do
    let _ ← perform Op.removeFlag
    return ()

def handlePut (name : String) (value : Option String) : Prog Response :=
  match value with
  | none => return .httpError "invalid JSON body" 400
  | some "" => return .httpError "value must not be empty" 400
  | some value => do
    let error ← sopsSet name value
    match error with
    | some error => return .httpError error 500
    | none => do
      let error ← gitCommitAndPush resolveRepoPath ("secrets: rotate " ++ name ++ " via dashboard")
      match error with
      | some error => return .httpError error 500
      | none => do
        let _ ← perform (Op.recordTimestamp name)
        setDeployPending true
        return .pending

/-- Unlike `PUT` it records no timestamp. -/
def handleDelete (name : String) : Prog Response := do
  let error ← sopsSet name ""
  match error with
  | some error => return .httpError error 500
  | none => do
    let error ← gitCommitAndPush resolveRepoPath ("secrets: wipe " ++ name ++ " via dashboard")
    match error with
    | some error => return .httpError error 500
    | none => do
      setDeployPending true
      return .pending

/-- A line that looks like JSON is passed on as it is. -/
def streamed (line : String) : StreamEvent :=
  if ['\x7b'].isPrefixOf (Strings.trimSpace line.toList) then .raw line else .typed "log" line

def handleDeploy : Prog Response := do
  let built ← perform Op.nhStart
  let nh ← perform (Op.nhWait built)
  let events := .typed "log" "Starting nh os switch..." :: nh.lines.map streamed
  match nh.error with
  | some error => return .stream (events ++ [.typed "error" ("deploy failed: " ++ error)])
  | none => do
    setDeployPending false
    return .stream (events ++ [.typed "done" "Deploy completed successfully"])

def handle : Request → Prog Response
  | .put name value => handlePut resolveRepoPath name value
  | .delete name => handleDelete resolveRepoPath name
  | .deploy => handleDeploy

end Repo

/-! ### Runs -/

/-- The host: the file, what the last successful deploy built of it, the flag, and the requests
that the daemon serves. -/
structure Host where
  secrets : Contents
  deployed : Contents
  flag : Bool
  inFlight : List (Prog Response) := []

def isDeployPending (s : Host) : Bool := s.flag

def Host.effect (s : Host) : (op : Op) → op.Ans → Host
  | .sopsSet _ _, sops => { s with secrets := sops.contents }
  | .writeFlag, written => { s with flag := s.flag || written }
  | .removeFlag, removed => { s with flag := s.flag && !removed }
  | .nhWait built, nh => if nh.error = none then { s with deployed := built } else s
  | .chown, _ | .git _, _ | .recordTimestamp _, _ | .nhStart, _ => s

/-- nh finds what is in the file; everything else is up to the commands. -/
def Host.permits (s : Host) : (op : Op) → op.Ans → Prop
  | .nhStart, found => found = s.secrets
  | _, _ => True

inductive Event where
  | arrive (request : Request)
  | act (i : Nat) (op : Op) (ans : op.Ans)
  /-- systemd removes the runtime directory, unless it is told to preserve it. -/
  | restart (wipes : Bool)
  | reboot

section Steps
variable (resolveRepoPath : String)

inductive Step : Host → Event → Host → Prop where
  | arrive {s : Host} (request : Request) :
    Step s (.arrive request) { s with inFlight := s.inFlight ++ [handle resolveRepoPath request] }
  | act {s : Host} {i : Nat} {op : Op} {k : op.Ans → Prog Response} (at_ : s.inFlight[i]? = some (.call op k))
      (ans : op.Ans)
    (permitted : s.permits op ans) : Step s (.act i op ans)
      { s.effect op ans with inFlight := s.inFlight.set i (k ans) }
  | restart {s : Host} (wipes : Bool) : Step s (.restart wipes) { s with flag := s.flag && !wipes, inFlight := [] }
  | reboot {s : Host} : Step s .reboot { s with flag := false, inFlight := [] }

structure Moment where
  before : Host
  event : Event
  after : Host

/-- A run with its history, the newest moment first. -/
inductive Run (ok : List Moment → Host → Event → Prop) (start : Host) : List Moment → Host → Prop
  | refl : Run ok start [] start
  | step {hist : List Moment} {s next : Host} {e : Event} (before : Run ok start hist s)
    (step : Step resolveRepoPath s e next)
    (met : ok hist s e) : Run ok start (⟨s, e, next⟩ :: hist) next

end Steps

/-- The file holds a value that the configuration was not built with. -/
def Undeployed (s : Host) : Prop := ∃ key, s.secrets key ≠ s.deployed key

def Flagged (s : Host) : Prop := Undeployed s → isDeployPending s = true

namespace Moment

def Changes (m : Moment) : Prop :=
  match m.event with
  | .act _ (.sopsSet _ _) sops => sops.contents ≠ m.before.secrets
  | _ => False

/-- A `PUT` or `DELETE` answers that a deploy is pending. -/
def Announces (m : Moment) : Prop := ∃ i op ans, m.event = .act i op ans ∧ m.after.inFlight[i]? = some (.done .pending)

/-- The end of a deploy, or of the runtime directory. -/
def Clears (m : Moment) : Prop :=
  match m.event with
  | .act _ .removeFlag removed => removed = true
  | .restart wipes => wipes = true
  | .reboot => True
  | _ => False

/-- The nh of request `i` ends well. -/
def Lands (i : Nat) (m : Moment) : Prop := ∃ built nh, m.event = .act i (.nhWait built) nh ∧ nh.error = none

end Moment

/-- Since a request has answered that a deploy is pending, no deploy has ended, and the runtime directory has stayed. -/
def Announced (start : Host) : List Moment → Prop
  | [] => start.flag = true
  | m :: earlier => m.Announces ∨ (¬ m.Clears ∧ Announced start earlier)

/-- The file has not changed since request `i` started its nh. -/
def Unchanged (i : Nat) : List Moment → Prop
  | [] => False
  | m :: earlier => (∃ found, m.event = .act i .nhStart found) ∨ (¬ m.Changes ∧ Unchanged i earlier)

/-- The file has not changed since the nh was started that landed last. -/
def Built (start : Host) : List Moment → Prop
  | [] => start.secrets = start.deployed
  | m :: earlier => (∃ i, m.Lands i ∧ Unchanged i earlier) ∨ ((∀ i, ¬ m.Lands i) ∧ ¬ m.Changes ∧ Built start earlier)

/-- Secrets change only behind another request's answer that a deploy is pending; a change that a deploy overlaps is not
followed by the end of the deploy, nor by its landing without such an answer; the runtime directory goes only when all
changes are built; and the flag can be written. -/
def Careful (start : Host) (hist : List Moment) (s : Host) : Event → Prop
  | .act _ (.sopsSet _ _) sops => sops.contents ≠ s.secrets → Announced start hist
  | .act i (.nhWait _) nh => nh.error = none → Unchanged i hist ∨ Announced start hist
  | .act _ .removeFlag removed => removed = true → Built start hist
  | .act _ .writeFlag written => written = true
  | .restart wipes => wipes = true → Built start hist
  | .reboot => Built start hist
  | _ => True

/-! ### One request -/

/-- The acts of request `i` in the daemon's present life. -/
def acts (i : Nat) : List Moment → Past Op Op.Ans
  | [] => []
  | m :: earlier => match m.event with
    | .act j op ans => if j = i then ⟨op, ans⟩ :: acts i earlier else acts i earlier
    | .arrive _ => acts i earlier
    | .restart _ | .reboot => []

/-- What the request's nh was started on. -/
def nhFound : Past Op Op.Ans → Option Contents
  | [] => none
  | ⟨.nhStart, found⟩ :: _ => some found
  | _ :: past => nhFound past

/-- A request builds what its nh has found. -/
def contract : Contract Op Op.Ans where
  allow past op := match op with
    | .nhWait built => nhFound past = some built
    | _ => True

/-- Who answers that a deploy is pending has just written the flag. -/
def Answers (response : Response) (past : Past Op Op.Ans) : Prop :=
  response = .pending → ∃ written, past.head? = some ⟨.writeFlag, written⟩

section Handlers
variable {resolveRepoPath name : String} {now : Past Op Op.Ans}

theorem uses_meets {α : Type} {p : Prog α} (h : p.Uses fun op => ∀ built, op ≠ .nhWait built) :
    p.Meets contract now fun _ _ => True := by
  refine h.meets (fun _ => True) ?_ (fun _ _ _ _ _ _ => trivial) trivial
  intro past op other _
  cases op with
  | nhWait built => exact absurd rfl (other built)
  | _ => trivial

theorem sopsSet_meets (value : String) : (sopsSet name value).Meets contract now fun _ _ => True := by
  refine uses_meets ?_
  unfold sopsSet
  split
  · exact .done _
  · refine .bind (.perform (by simp)) fun sops => ?_
    split
    · exact .done _
    · exact .bind (.perform (by simp)) fun _ => .done _

theorem gitCommitAndPush_meets (message : String) :
    (gitCommitAndPush resolveRepoPath message).Meets contract now fun _ _ => True :=
  uses_meets (.firstSome fun args => .bind (.perform (by simp)) fun _ => .done _)

theorem announce_meets : (setDeployPending true >>= fun _ =>
    return .pending : Prog Response).Meets contract now Answers :=
  ⟨trivial, fun written _ _ => ⟨written, rfl⟩⟩

theorem handlePut_meets (value : Option String) :
    (handlePut resolveRepoPath name value).Meets contract now Answers := by
  unfold handlePut
  split
  · exact nofun
  · exact nofun
  · rw [meets_bind]
    refine (sopsSet_meets _).mono fun error past _ => ?_
    cases error with
    | some error => exact nofun
    | none =>
      dsimp only
      rw [meets_bind]
      refine (gitCommitAndPush_meets _).mono fun error past _ => ?_
      cases error with
      | some error => exact nofun
      | none => exact ⟨trivial, fun _ _ => announce_meets⟩

theorem handleDelete_meets : (handleDelete resolveRepoPath name).Meets contract now Answers := by
  unfold handleDelete
  rw [meets_bind]
  refine (sopsSet_meets _).mono fun error past _ => ?_
  cases error with
  | some error => exact nofun
  | none =>
    dsimp only
    rw [meets_bind]
    refine (gitCommitAndPush_meets _).mono fun error past _ => ?_
    cases error with
    | some error => exact nofun
    | none => exact announce_meets

theorem handleDeploy_meets : handleDeploy.Meets contract now Answers := by
  refine ⟨trivial, fun built _ => ⟨rfl, fun nh _ => ?_⟩⟩
  dsimp only [Program.bind]
  split
  · exact nofun
  · exact ⟨trivial, fun _ _ => nofun⟩

theorem handle_meets (request : Request) : (handle resolveRepoPath request).Meets contract now Answers := by
  cases request with
  | put name value => exact handlePut_meets value
  | delete name => exact handleDelete_meets
  | deploy => exact handleDeploy_meets

end Handlers

/-! ### Steps -/

section Careful
variable {resolveRepoPath : String} {start s next : Host} {e : Event} {hist : List Moment}

theorem not_undeployed : ¬ Undeployed s ↔ s.secrets = s.deployed := by
  unfold Undeployed
  constructor
  · intro same
    funext key
    by_contra different
    exact same ⟨key, different⟩
  · rintro same ⟨key, different⟩
    exact different (congrFun same key)

theorem flagged_iff : Flagged s ↔ s.flag = true ∨ s.secrets = s.deployed := by
  unfold Flagged isDeployPending
  rw [imp_iff_not_or, not_undeployed, or_comm]

/-- What the history says of the flag, the file and the requests. -/
structure Kept (start : Host) (hist : List Moment) (s : Host) : Prop where
  flagged : Flagged s
  announced : Announced start hist → s.flag = true
  built : Built start hist → s.secrets = s.deployed
  unchanged : ∀ i found, nhFound (acts i hist) = some found → Unchanged i hist → found = s.secrets
  threads : ∀ (i : Nat) code, s.inFlight[i]? = some code → code.Meets contract (acts i hist) Answers
  fresh : ∀ i, s.inFlight.length ≤ i → acts i hist = []

theorem kept_start (flagged : Flagged start) (idle : start.inFlight = []) : Kept start [] start where
  flagged := flagged
  announced := id
  built := id
  unchanged _ _ none := nomatch none
  threads i code at_ := by
    rw [idle] at at_
    cases at_
  fresh _ _ := rfl

/-- What a request is about to build is what its nh has found. -/
theorem Kept.builds (kept : Kept start hist s) {i : Nat} {built : Contents} {k : Nh → Prog Response}
    (at_ : s.inFlight[i]? = some (.call (.nhWait built) k)) : nhFound (acts i hist) = some built :=
  (kept.threads i _ at_).1

theorem Kept.flagged_step (kept : Kept start hist s) (met : Careful start hist s e)
    (step : Step resolveRepoPath s e next) :
    Flagged next := by
  have flagged := flagged_iff.mp kept.flagged
  rw [flagged_iff]
  cases step with
  | arrive request => exact flagged
  | @act i op k at_ ans permitted =>
    cases op with
    | sopsSet jsonPath stdin =>
      show s.flag = true ∨ ans.contents = s.deployed
      by_cases same : ans.contents = s.secrets
      · exact flagged.imp_right same.trans
      · exact .inl (kept.announced (met same))
    | nhWait built =>
      have effect : s.effect (.nhWait built) ans = if ans.error = none then { s with deployed := built } else s := rfl
      show (s.effect _ ans).flag = true ∨ (s.effect _ ans).secrets = (s.effect _ ans).deployed
      rw [effect]
      split
      · rename_i landed
        rcases met landed with unchanged | announced
        · exact .inr (kept.unchanged i built (kept.builds at_) unchanged).symm
        · exact .inl (kept.announced announced)
      · exact flagged
    | removeFlag =>
      show (s.flag && !ans) = true ∨ s.secrets = s.deployed
      cases ans with
      | true => exact .inr (kept.built (met rfl))
      | false => simpa using flagged
    | writeFlag =>
      show (s.flag || ans) = true ∨ s.secrets = s.deployed
      exact flagged.imp_left fun flag => by rw [flag, Bool.true_or]
    | _ => exact flagged
  | restart wipes =>
    show (s.flag && !wipes) = true ∨ s.secrets = s.deployed
    cases wipes with
    | true => exact .inr (kept.built (met rfl))
    | false => simpa using flagged
  | reboot => exact .inr (kept.built met)

theorem acts_act (i j : Nat) (op : Op) (ans : op.Ans) :
    acts i (⟨s, .act j op ans, next⟩ :: hist) = if j = i then ⟨op, ans⟩ :: acts i hist else acts i hist := rfl

theorem threads_step (kept : Kept start hist s) (step : Step resolveRepoPath s e next) (i : Nat) (code : Prog Response)
    (at_ : next.inFlight[i]? = some code) : code.Meets contract (acts i (⟨s, e, next⟩ :: hist)) Answers := by
  cases step with
  | arrive request =>
    show code.Meets contract (acts i hist) Answers
    have at_ : (s.inFlight ++ [handle resolveRepoPath request])[i]? = some code := at_
    by_cases inside : i < s.inFlight.length
    · rw [List.getElem?_append_left inside] at at_
      exact kept.threads i code at_
    · rw [List.getElem?_append_right (Nat.le_of_not_lt inside)] at at_
      obtain rfl := List.mem_singleton.mp (List.mem_of_getElem? at_)
      exact handle_meets request
  | @act j op k at_' ans permitted =>
    show code.Meets contract (if j = i then ⟨op, ans⟩ :: acts i hist else acts i hist) Answers
    have at_ : (s.inFlight.set j (k ans))[i]? = some code := at_
    by_cases same : j = i
    · subst same
      have inside := (List.getElem?_eq_some_iff.mp at_').1
      rw [List.getElem?_set_self inside] at at_
      cases at_
      rw [if_pos rfl]
      exact (kept.threads j _ at_').2 ans trivial
    · rw [List.getElem?_set_ne same] at at_
      rw [if_neg same]
      exact kept.threads i code at_
  | restart | reboot => cases at_

theorem fresh_step (kept : Kept start hist s) (step : Step resolveRepoPath s e next) (i : Nat)
    (outside : next.inFlight.length ≤ i) :
    acts i (⟨s, e, next⟩ :: hist) = [] := by
  cases step with
  | arrive request =>
    refine kept.fresh i ?_
    rw [List.length_append] at outside
    omega
  | @act j op k at_ ans permitted =>
    have inside := (List.getElem?_eq_some_iff.mp at_).1
    have outside : s.inFlight.length ≤ i := by simpa using outside
    show (if j = i then _ else acts i hist) = []
    rw [if_neg (by omega)]
    exact kept.fresh i outside
  | restart | reboot => rfl

theorem announced_step (kept : Kept start hist s) (met : Careful start hist s e) (step : Step resolveRepoPath s e next)
    (announced : Announced start (⟨s, e, next⟩ :: hist)) : next.flag = true := by
  rcases announced with ⟨i, op, ans, rfl, answered⟩ | ⟨stays, before⟩
  · have answers := threads_step kept step i _ answered rfl
    have last : acts i (⟨s, .act i op ans, next⟩ :: hist) = ⟨op, ans⟩ :: acts i hist := if_pos rfl
    obtain ⟨written, same⟩ := answers
    rw [last] at same
    cases same
    cases step with
    | act at_ _ permitted =>
      obtain rfl : written = true := met
      exact Bool.or_true _
  · have flag := kept.announced before
    cases step with
    | arrive request => exact flag
    | @act i op k at_ ans permitted =>
      cases op with
      | removeFlag =>
        obtain rfl : ans = false := by simpa [Moment.Clears] using stays
        exact (Bool.and_true _).trans flag
      | writeFlag => exact (congrArg (· || ans) flag).trans (Bool.true_or _)
      | nhWait built =>
        show (if ans.error = none then { s with deployed := built } else s).flag = true
        split <;> exact flag
      | _ => exact flag
    | restart wipes =>
      obtain rfl : wipes = false := by simpa [Moment.Clears] using stays
      exact (Bool.and_true _).trans flag
    | reboot => exact absurd trivial stays

/-- A moment that changes nothing. -/
theorem secrets_step (step : Step resolveRepoPath s e next) (same : ¬ Moment.Changes ⟨s, e, next⟩) :
    next.secrets = s.secrets := by
  cases step with
  | @act i op k at_ ans permitted =>
    cases op with
    | sopsSet jsonPath stdin => exact Classical.not_not.mp same
    | nhWait built =>
      show (if ans.error = none then { s with deployed := built } else s).secrets = s.secrets
      split <;> rfl
    | _ => rfl
  | _ => rfl

theorem deployed_step (step : Step resolveRepoPath s e next) (none : ∀ i, ¬ Moment.Lands i ⟨s, e, next⟩) :
    next.deployed = s.deployed := by
  cases step with
  | @act i op k at_ ans permitted =>
    cases op with
    | nhWait built =>
      show (if ans.error = Option.none then { s with deployed := built } else s).deployed = s.deployed
      rw [if_neg fun landed => none i ⟨built, ans, rfl, landed⟩]
    | _ => rfl
  | _ => rfl

theorem built_step (kept : Kept start hist s) (step : Step resolveRepoPath s e next)
    (built : Built start (⟨s, e, next⟩ :: hist)) : next.secrets = next.deployed := by
  rcases built with ⟨i, ⟨built, nh, rfl, landed⟩, unchanged⟩ | ⟨none, same, before⟩
  · cases step with
    | act at_ _ permitted =>
      show (if nh.error = none then { s with deployed := built } else s).secrets =
        (if nh.error = none then { s with deployed := built } else s).deployed
      rw [if_pos landed]
      exact (kept.unchanged i built (kept.builds at_) unchanged).symm
  · rw [secrets_step step same, deployed_step step none, kept.built before]

theorem unchanged_step (kept : Kept start hist s) (step : Step resolveRepoPath s e next) (i : Nat) (found : Contents)
    (there : nhFound (acts i (⟨s, e, next⟩ :: hist)) = some found) (unchanged : Unchanged i (⟨s, e, next⟩ :: hist)) :
    found = next.secrets := by
  rcases unchanged with ⟨found', rfl⟩ | ⟨same, before⟩
  · rw [acts_act, if_pos rfl] at there
    cases there
    cases step with
    | act at_ _ permitted => exact permitted
  · rw [secrets_step step same]
    cases step with
    | arrive request => exact kept.unchanged i found there before
    | @act j op k at_ ans permitted =>
      rw [acts_act] at there
      split at there
      · rename_i mine
        subst mine
        cases op with
        | nhStart =>
          cases there
          exact permitted
        | _ => exact kept.unchanged j found there before
      · exact kept.unchanged i found there before
    | restart | reboot => cases there

theorem Kept.step (kept : Kept start hist s) (met : Careful start hist s e) (step : Step resolveRepoPath s e next) :
    Kept start (⟨s, e, next⟩ :: hist) next where
  flagged := kept.flagged_step met step
  announced := announced_step kept met step
  built := built_step kept step
  unchanged := unchanged_step kept step
  threads := threads_step kept step
  fresh := fresh_step kept step

/-- In every run whose steps are careful each undeployed change is flagged, in every state. -/
theorem run_flagged (flagged : Flagged start) (idle : start.inFlight = [])
    (run : Run resolveRepoPath (Careful start) start hist s) :
    Flagged s := by
  have kept : Kept start hist s := by
    induction run with
    | refl => exact kept_start flagged idle
    | step _ step met ih => exact ih.step met step
  exact kept.flagged

end Careful

/-! ### A flag that is lost -/

def repo : String := "/home/nixos"

def secret : String := "caddy/TOKEN"

/-- The file after a rotation. -/
def rotated : Contents := fun key => if key = ("caddy", "TOKEN") then "new" else ""

def host (flag : Bool) : Host := { secrets := fun _ => "", deployed := fun _ => "", flag := flag }

/-- Every command succeeds; a wipe finds nothing to wipe. -/
def Host.answer (s : Host) : (op : Op) → op.Ans
  | .sopsSet _ stdin => { contents := if stdin = quoted "" then s.secrets else rotated }
  | .git _ => none
  | .chown | .recordTimestamp _ => ()
  | .writeFlag | .removeFlag => true
  | .nhStart => s.secrets
  | .nhWait _ => {}

/-- The request at `i` acts. -/
def go (i : Nat) (t : List Moment × Host) : List Moment × Host :=
  match t.2.inFlight[i]? with
  | some (.call op k) =>
    let next := { t.2.effect op (t.2.answer op) with inFlight := t.2.inFlight.set i (k (t.2.answer op)) }
    (⟨t.2, .act i op (t.2.answer op), next⟩ :: t.1, next)
  | _ => t

def goes (i : Nat) : Nat → List Moment × Host → List Moment × Host
  | 0, t => t
  | n + 1, t => goes i n (go i t)

def arrives (request : Request) (t : List Moment × Host) : List Moment × Host :=
  let next := { t.2 with inFlight := t.2.inFlight ++ [handle repo request] }
  (⟨t.2, .arrive request, next⟩ :: t.1, next)

section Play
variable {ok : List Moment → Host → Event → Prop} {start : Host} {t : List Moment × Host}

theorem go_run (i : Nat) (run : Run repo ok start t.1 t.2)
    (met : ∀ op k, t.2.inFlight[i]? = some (.call op k) → ok t.1 t.2 (.act i op (t.2.answer op))) :
    Run repo ok start (go i t).1 (go i t).2 := by
  unfold go
  split
  · rename_i op k at_
    refine .step run (.act at_ _ ?_) (met op k at_)
    cases op <;> first | rfl | trivial
  · exact run

theorem goes_run (i n : Nat) (run : Run repo (fun _ _ _ => True) start t.1 t.2) :
    Run repo (fun _ _ _ => True) start (goes i n t).1 (goes i n t).2 := by
  induction n generalizing t with
  | zero => exact run
  | succ n ih => exact ih (go_run i run fun _ _ _ => trivial)

theorem arrives_run (request : Request) (run : Run repo ok start t.1 t.2) (met : ok t.1 t.2 (.arrive request)) :
    Run repo ok start (arrives request t).1 (arrives request t).2 := .step run (.arrive request) met

end Play

/-- A wipe that finds nothing to wipe raises the flag, and the rotation behind it is flagged from the first. -/
theorem run_flagged_announced : ∃ hist s, Undeployed s ∧ Run repo (Careful (host false)) (host false) hist s ∧
    Flagged s := by
  have arrived := arrives_run (t := ([], host false)) (.delete secret)
    (.refl : Run repo (Careful (host false)) (host false) [] (host false)) trivial
  have wiped := go_run 0 arrived fun op k at_ => by
    cases at_
    exact fun differs => absurd rfl differs
  have owned := go_run 0 wiped fun op k at_ => by
    cases at_
    trivial
  have added := go_run 0 owned fun op k at_ => by
    cases at_
    trivial
  have committed := go_run 0 added fun op k at_ => by
    cases at_
    trivial
  have pushed := go_run 0 committed fun op k at_ => by
    cases at_
    trivial
  have announced := go_run 0 pushed fun op k at_ => by
    cases at_
    rfl
  have rotates := arrives_run (.put secret (some "new")) announced trivial
  have run := go_run 1 rotates fun op k at_ => by
    cases at_
    exact fun _ => .inr ⟨id, .inl ⟨0, .writeFlag, true, rfl, rfl⟩⟩
  exact ⟨_, _, ⟨("caddy", "TOKEN"), by decide⟩, run, run_flagged (fun ⟨_, different⟩ => absurd rfl different) rfl run⟩

/-- The deploy that is under way removes the flag of a rotation that it does not build. -/
theorem flag_lost : ¬ ∀ (resolveRepoPath : String) (start : Host) (hist : List Moment) (s : Host), Flagged start →
    start.inFlight = [] → Run resolveRepoPath (fun _ _ _ => True) start hist s → Flagged s := by
  intro claim
  have begun := goes_run 0 1 (arrives_run (t := ([], host false)) .deploy .refl trivial)
  have rotated_ := goes_run 1 7 (arrives_run (.put secret (some "new")) begun trivial)
  have removed := goes_run 0 2 rotated_
  have pending := claim repo _ _ _ (fun ⟨_, different⟩ => absurd rfl different) rfl removed
    ⟨("caddy", "TOKEN"), by decide⟩
  revert pending
  decide

end Secrets
end HomelabDaemon
