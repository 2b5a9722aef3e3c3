import HomelabDaemon.System

/-!
# Commands of the command line

`homelab services start`, `stop` and `restart` against the daemon's handlers, and `homelab vms`, which reads the body
of its response. Between the two stands net/http: it may deliver a request to the handler, to another one or to none.
-/

namespace HomelabDaemon.Cli
open Concurrency Program

/-- How the command ends; `die` prints to stderr and exits with 1. -/
inductive Result where
  | printed (line : String)
  | died (message : String)
  deriving DecidableEq

def Result.exitCode : Result → Nat
  | printed _ => 0
  | died _ => 1

/-- What the struct of `handleVMAction` decodes from a body. -/
structure Body where
  success : Bool := false
  error : String := ""
  deriving DecidableEq

/-- A response as it arrives, with what a decoder makes of its body. -/
structure Reply where
  status : Nat
  body : Except String Body := .ok {}

/-- No client decodes the body of an `http.Error`: its status is not 200. -/
def Reply.of : Response → Reply
  | .httpError _ status => { status := status }
  | .success => { status := 200, body := .ok { success := true } }
  | .failure error => { status := 200, body := .ok { error := error } }
  | .totals success _ _ => { status := 200, body := .ok { success := success } }
  | .conflict error _ _ => { status := 409, body := .ok { error := error } }
  | .services _ | .service _ | .backup _ => { status := 200 }

def report (done unit : String) : Except String Reply → Result
  | .error error => .died ("contacting daemon: " ++ error)
  | .ok reply =>
    if reply.status ≠ 200 then .died ("daemon returned status " ++ toString reply.status)
    else .printed (done ++ " " ++ unit)

def handleStart (unit : String) : Except String Reply → Result := report "Started" unit

def handleStop (unit : String) : Except String Reply → Result := report "Stopped" unit

def handleRestart (unit : String) : Except String Reply → Result := report "Restarted" unit

/-- The sibling that looks at both the status and the body; an error makes `main` exit with 1. -/
def handleVMAction (name action : String) : Except String Reply → Result
  | .error error => .died ("contacting daemon: " ++ error)
  | .ok reply =>
    if reply.status ≠ 200 then .died ("daemon returned status " ++ toString reply.status)
    else match reply.body with
      | .error error => .died ("decoding response: " ++ error)
      | .ok result =>
        if !result.success then
          .died ("VM action failed: " ++ (if result.error = "" then "daemon reported failure (no message)"
          else result.error))
        else .printed ("✔ VM " ++ name ++ ": " ++ action)

def client : Verb → String → Except String Reply → Result
  | .start => handleStart
  | .stop => handleStop
  | .restart => handleRestart

def done : Verb → String
  | .start => "Started"
  | .stop => "Stopped"
  | .restart => "Restarted"

def handler : Verb → String → Prog Response
  | .start => HomelabDaemon.handleStart
  | .stop => HomelabDaemon.handleStop
  | .restart => HomelabDaemon.handleRestart

/-- A handler that has run, with the answers that it got from the daemon's state, mounts and systemctl. -/
structure Handling (verb : Verb) where
  /-- The path value that the mux found. -/
  value : String
  response : Response
  past : Past Op Op.Ans
  ran : (handler verb value).Path [] response past

/-- What becomes of a request. The response of a handler may be lost, as by the client's timeout. -/
inductive Exchange (verb : Verb) where
  | refused (error : String)
  | elsewhere (reply : Reply)
  | handled (handling : Handling verb) (lost : Option String)

namespace Exchange
variable {verb : Verb}

def reply : Exchange verb → Except String Reply
  | refused error => .error error
  | elsewhere reply => .ok reply
  | handled _ (some error) => .error error
  | handled handling none => .ok (.of handling.response)

/-- The handler's response carries success. -/
def Performed : Exchange verb → Prop
  | handled handling _ => handling.response = .success
  | _ => False

/-- The handler's response is an error of any form. -/
def Failed : Exchange verb → Prop
  | handled handling _ => handling.response ≠ .success
  | _ => False

/-- The client reports success for a success, and nothing else. -/
structure Right (unit : String) (exchange : Exchange verb) : Prop where
  prints : (client verb unit exchange.reply = .printed (done verb ++ " " ++ unit) ∧
    (client verb unit exchange.reply).exitCode = 0) ↔ exchange.Performed
  dies : exchange.Failed → (client verb unit exchange.reply).exitCode ≠ 0

end Exchange

/-! ### The handlers -/

/-- A required mount that is not mounted, or a systemctl client that fails. -/
def fails : Act Op Op.Ans → Bool
  | ⟨.ask (.isMounted _), mounted⟩ => !mounted
  | ⟨.wait _ _, exit⟩ => exit.error.isSome
  | _ => false

/-- The configuration that the handler read first does not have the unit. -/
def Unmanaged (value : String) (past : Past Op Op.Ans) : Prop :=
  ∃ cfg, past.getLast? = some ⟨.config, cfg⟩ ∧ isManaged cfg value = false

/-- The program returns an error if and only if one of the answers that it got is a failure. -/
def Tells (p : Prog (Option String)) : Prop :=
  ∀ {past r past'}, p.Path past r past' → past'.any fails = (r.isSome || past.any fails)

theorem startUnit_tells (unit : String) : Tells (startUnit unit) := by
  rintro past r past' ⟨_, _, _, exit, _, rfl, rfl⟩
  simp [fails]

theorem restartUnit_tells (unit : String) : Tells (restartUnit unit) := by
  rintro past r past' ⟨_, exit, rfl, rfl⟩
  simp [fails]

theorem clearFailed_fails {unit : String} {past past' : Past Op Op.Ans} (path : (clearFailed unit).Path past () past') :
    past'.any fails = past.any fails := by
  obtain ⟨state, path⟩ := path
  change Path (if state = "failed" then _ else _) _ _ _ at path
  split at path
  · obtain ⟨_, _, rfl⟩ := path
    rfl
  · obtain ⟨_, rfl⟩ := path
    rfl

theorem stopUnit_tells (unit : String) : Tells (stopUnit unit) := by
  rintro past r past' ⟨_, _, exit, path⟩
  change Path ((if exit = .ok then clearFailed unit else pure ()) >>= _) _ _ _ at path
  obtain ⟨_, mid, cleared, _, _, rfl, rfl⟩ := path_bind.mp path
  have same : mid.any fails = (exit.error.isSome || past.any fails) := by
    split at cleared
    · exact (clearFailed_fails cleared).trans (by simp [fails])
    · obtain ⟨_, rfl⟩ := cleared
      simp [fails]
  exact same

theorem firstSome_tells {α : Type} {body : α → Prog (Option String)} (each : ∀ x, Tells (body x)) (xs : List α) :
    Tells (firstSome body xs) := by
  induction xs with
  | nil =>
    rintro past r past' ⟨rfl, rfl⟩
    simp
  | cons x xs ih =>
    intro past r past' path
    obtain ⟨first, mid, one, rest⟩ := path_bind.mp path
    have told := each x one
    cases first with
    | some error =>
      obtain ⟨rfl, rfl⟩ := rest
      exact told
    | none =>
      rw [ih rest, told]
      rfl

theorem checkConstraints_tells (svc : Service) : Tells (checkConstraints svc) := by
  refine firstSome_tells (fun mnt => ?_) _
  rintro past r past' ⟨mounted, rfl, rfl⟩
  cases mounted <;> simp [fails]

theorem constraintsOf_tells (unit : String) : Tells (constraintsOf unit) := by
  rintro past r past' ⟨cfg, path⟩
  dsimp only [Program.bind] at path
  split at path
  · obtain ⟨rfl, rfl⟩ := path
    simp [fails]
  · exact (checkConstraints_tells _ path).trans (by simp [fails])

/-- The three ways in which a handler ends. -/
inductive Verdict (value : String) : Response → Past Op Op.Ans → Prop where
  | unknown {past} (unmanaged : Unmanaged value past) (calm : past.any fails = false) :
    Verdict value (.httpError (errorBody "unknown unit") 400) past
  | success {past} (managed : ¬ Unmanaged value past) (calm : past.any fails = false) : Verdict value .success past
  | failure {past} (error : String) (failed : past.any fails = true) : Verdict value (.failure error) past

theorem unmanaged_iff {cfg : Config} {value : String} {past : Past Op Op.Ans} (suffix : [⟨.config, cfg⟩] <:+ past) :
    Unmanaged value past ↔ isManaged cfg value = false := by
  obtain ⟨before, rfl⟩ := suffix
  have last : (before ++ [(⟨.config, cfg⟩ : Act Op Op.Ans)]).getLast? = some ⟨.config, cfg⟩ := List.getLast?_concat
  constructor
  · rintro ⟨cfg', last', unmanaged⟩
    cases last.symm.trans last'
    exact unmanaged
  · exact fun unmanaged => ⟨cfg, last, unmanaged⟩

/-- A handler's frame: the check of the unit, and then a program whose error becomes the response. -/
theorem verdict_of_checked {value : String} {go : Prog Response} {cfg : Config} {response : Response}
    {past : Past Op Op.Ans}
    (path : Path (if !isManaged cfg value then return .httpError (errorBody "unknown unit") 400 else go)
      [⟨.config, cfg⟩] response past)
    (told : go.Path [⟨.config, cfg⟩] response past → ∃ error : Option String, response = .ofError error ∧
    past.any fails = error.isSome) :
    Verdict value response past := by
  have first : Unmanaged value past ↔ isManaged cfg value = false := unmanaged_iff path.suffix
  cases managed : isManaged cfg value with
  | false =>
    rw [managed] at path
    obtain ⟨rfl, rfl⟩ := path
    exact .unknown (first.mpr managed) rfl
  | true =>
    rw [managed] at path first
    obtain ⟨error, rfl, failed⟩ := told path
    cases error with
    | some message => exact .failure message failed
    | none => exact .success (by simp [first]) failed

theorem verdict {verb : Verb} {value : String} {response : Response} {past : Past Op Op.Ans}
    (ran : (handler verb value).Path [] response past) : Verdict value response past := by
  cases verb with
  | start =>
    obtain ⟨cfg, path⟩ := ran
    refine verdict_of_checked path fun ⟨_, path⟩ => ?_
    change Path (constraintsOf value >>= _) _ _ _ at path
    obtain ⟨unmet, mid, checked, path⟩ := path_bind.mp path
    have blocked := constraintsOf_tells value checked
    cases unmet with
    | some error =>
      obtain ⟨rfl, rfl⟩ := path
      exact ⟨some error, rfl, blocked.trans (by simp)⟩
    | none =>
      obtain ⟨error, mid, started, rfl, rfl⟩ := path_bind.mp path
      exact ⟨error, rfl, (startUnit_tells value started).trans (by simp [blocked, fails])⟩
  | stop =>
    obtain ⟨cfg, path⟩ := ran
    refine verdict_of_checked path fun ⟨_, path⟩ => ?_
    change Path (stopUnit value >>= _) _ _ _ at path
    obtain ⟨error, mid, stopped, rfl, rfl⟩ := path_bind.mp path
    exact ⟨error, rfl, (stopUnit_tells value stopped).trans (by simp [fails])⟩
  | restart =>
    obtain ⟨cfg, path⟩ := ran
    refine verdict_of_checked path fun ⟨_, path⟩ => ?_
    change Path (restartUnit value >>= _) _ _ _ at path
    obtain ⟨error, mid, restarted, path⟩ := path_bind.mp path
    have told := restartUnit_tells value restarted
    cases error with
    | some message =>
      obtain ⟨rfl, rfl⟩ := path
      exact ⟨some message, rfl, told⟩
    | none =>
      refine ⟨none, ?_⟩
      obtain ⟨_, mid', checks, rfl, rfl⟩ := path_bind.mp path
      split at checks
      · obtain ⟨_, rfl, rfl⟩ := checks
        exact ⟨rfl, told⟩
      · obtain ⟨_, rfl⟩ := checks
        exact ⟨rfl, told⟩

/-! ### Both ends -/

/-- What the exchange must be for the client to be right: nothing failed that comes with status 200, and nothing
succeeded whose response is lost. -/
def Exchange.Agrees {verb : Verb} : Exchange verb → Prop
  | .refused _ => True
  | .elsewhere reply => reply.status ≠ 200
  | .handled handling none => handling.past.any fails = false
  | .handled handling (some _) => Unmanaged handling.value handling.past ∨ handling.past.any fails = true

/-- A response with status 200 arrives. -/
def Exchange.Answered {verb : Verb} (exchange : Exchange verb) : Prop :=
  ∃ reply, exchange.reply = .ok reply ∧ reply.status = 200

section Right
variable {verb : Verb} {unit : String} {exchange : Exchange verb}

theorem client_exit : (client verb unit exchange.reply).exitCode = 0 ↔ exchange.Answered := by
  have same : client verb unit exchange.reply = report (done verb) unit exchange.reply := by cases verb <;> rfl
  rw [same]
  unfold report Exchange.Answered
  split
  · rename_i error refused
    simp [refused, Result.exitCode]
  · rename_i reply answered
    by_cases ok : reply.status = 200 <;> simp [answered, ok, Result.exitCode]

theorem client_prints : client verb unit exchange.reply = .printed (done verb ++ " " ++ unit) ↔ exchange.Answered := by
  have same : client verb unit exchange.reply = report (done verb) unit exchange.reply := by cases verb <;> rfl
  rw [same]
  unfold report Exchange.Answered
  split
  · rename_i error refused
    simp [refused]
  · rename_i reply answered
    by_cases ok : reply.status = 200 <;> simp [answered, ok]

theorem right_of_status : exchange.Right unit ↔ (exchange.Answered ↔ exchange.Performed) := by
  constructor
  · intro right
    rw [← right.prints, client_exit, client_prints, and_self]
  · intro same
    refine ⟨by rw [client_exit, client_prints, and_self, same], fun failed exits => ?_⟩
    have performed := same.mp (client_exit.mp exits)
    cases exchange with
    | refused error => exact failed
    | elsewhere reply => exact failed
    | handled handling lost => exact failed performed

end Right

/-- The clients are right about a refusal, and about nothing that fails after the unit was found. -/
theorem client_right_iff {verb : Verb} (unit : String) (exchange : Exchange verb) :
    exchange.Right unit ↔ exchange.Agrees := by
  rw [right_of_status]
  cases exchange with
  | refused error => simp [Exchange.Answered, Exchange.reply, Exchange.Performed, Exchange.Agrees]
  | elsewhere reply => simp [Exchange.Answered, Exchange.reply, Exchange.Performed, Exchange.Agrees]
  | handled handling lost =>
    have ended := verdict handling.ran
    obtain ⟨value, response, past, ran⟩ := handling
    cases lost with
    | none =>
      cases ended with
      | unknown unmanaged calm => simp [Exchange.Answered, Exchange.reply, Reply.of, Exchange.Performed,
          Exchange.Agrees, calm]
      | success managed calm => simp [Exchange.Answered, Exchange.reply, Reply.of, Exchange.Performed, Exchange.Agrees,
          calm]
      | failure error failed => simp [Exchange.Answered, Exchange.reply, Reply.of, Exchange.Performed, Exchange.Agrees,
          failed]
    | some error =>
      cases ended with
      | unknown unmanaged calm => simp [Exchange.Answered, Exchange.reply, Exchange.Performed, Exchange.Agrees,
          unmanaged]
      | success managed calm => simp [Exchange.Answered, Exchange.reply, Exchange.Performed, Exchange.Agrees, managed,
          calm]
      | failure error failed => simp [Exchange.Answered, Exchange.reply, Exchange.Performed, Exchange.Agrees, failed]

/-- The sibling decides by the body too, and is right about each response that a command's handler gives. -/
theorem vm_right (name action : String) {verb : Verb} (handling : Handling verb) :
    handleVMAction name action (.ok (.of handling.response)) = .printed ("✔ VM " ++ name ++ ": " ++ action) ↔
      handling.response = .success := by
  have ended := verdict handling.ran
  obtain ⟨value, response, past, ran⟩ := handling
  cases ended <;> simp [handleVMAction, Reply.of]

namespace Demo

def config : Config :=
  { services := [
      { unit := "jellyfin.service", enabled := true, order := 1, restart := "always", requiresMounts := ["/mnt/pool"] }] }

/-- Nothing is mounted. -/
def answer : (op : Op) → op.Ans := Outside.answer {} { cfg := config }

def blocked : Handling .start where
  value := "jellyfin.service"
  response := ((handler .start "jellyfin.service").follow answer []).1
  past := ((handler .start "jellyfin.service").follow answer []).2
  ran := follow_path (handler .start "jellyfin.service") []

example : blocked.response = .failure "mount \"/mnt/pool\" not mounted" := by decide

end Demo

/-- The daemon refuses to start a service whose mount is missing, and the client prints that it started it. -/
theorem blocked_start_printed : ¬ (Exchange.handled Demo.blocked none).Right "jellyfin.service" := by
  intro right
  have printed : (client .start "jellyfin.service" (Exchange.handled Demo.blocked none).reply).exitCode = 0 := by decide
  have refused : Demo.blocked.response ≠ .success := by decide
  exact right.dies refused printed

end HomelabDaemon.Cli
