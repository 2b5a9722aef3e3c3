import HomelabDaemon.Concurrency.Trace
import HomelabDaemon.Strings

/-!
# The logs page

The hook that queries the logs, in which a request aborts the one before. Beside its state stand the requests that it
has sent and the timers that are to end the loading state. `parseLine` is `JSON.parse` of one line.
-/

namespace HomelabDaemon.LogsPage
open Concurrency Strings

structure LogViewerServiceConfig where
  id : Str
  selector : Str
  deriving DecidableEq

/-- The arguments of the hook. -/
structure Args where
  config : LogViewerServiceConfig
  fieldFilters : List (Str × Str)
  textQuery : Str
  window : Str
  maxLines : Nat
  deriving DecidableEq

/-- What `fetchLogs` depends on: the selector counts by the service's id. -/
def Args.deps (a : Args) : Str × List (Str × Str) × Str × Str × Nat :=
  (a.config.id, a.fieldFilters, a.textQuery, a.window, a.maxLines)

def isWhiteSpace (c : Char) : Bool :=
  c.toNat ∈ [0x09, 0x0A, 0x0B, 0x0C, 0x0D, 0x20, 0xA0, 0x1680, 0x2028, 0x2029, 0x202F, 0x205F, 0x3000, 0xFEFF] ||
    (0x2000 ≤ c.toNat && c.toNat ≤ 0x200A)

def trim (s : Str) : Str := (s.dropWhile isWhiteSpace).rdropWhile isWhiteSpace

def selector (a : Args) : Str :=
  let filterPairs := a.fieldFilters.filter (·.2 ≠ [])
  if filterPairs = [] then a.config.selector
  else
    let filters := [',', ' '].intercalate (filterPairs.map fun (k, v) => k ++ ['=', '"'] ++ v ++ ['"'])
    let inner := (a.config.selector.drop 1).dropLast
    ['{'] ++ inner ++ (if trim inner = [] then [] else [',', ' ']) ++ filters ++ ['}']

def query (a : Args) : Str :=
  if trim a.textQuery = [] then selector a else selector a ++ [' '] ++ trim a.textQuery

/-- A window's length in milliseconds. -/
def windowLength (window : Str) : Option Nat :=
  let digits := window.dropLast
  if digits = [] ∨ !digits.all Char.isDigit then none
  else
    let n := digits.foldl (fun n c => 10 * n + (c.toNat - '0'.toNat)) 0
    match window.getLast? with
    | some 'm' => some (n * 60000)
    | some 'h' => some (n * 3600000)
    | some 'd' => some (n * 86400000)
    | _ => none

/-- The parameters of a request, with start and end in milliseconds. -/
structure Request where
  query : Str
  limit : Nat
  range : Option (Int × Int)

def request (a : Args) (now : Int) : Request where
  query := query a
  limit := a.maxLines
  range := (windowLength a.window).map fun ms => (now - ms, now)

inductive Status where
  | pending
  | aborted
  | answered (body : Str)
  | failed (message : Str)
  deriving DecidableEq

structure Sent where
  args : Args
  request : Request
  status : Status := .pending

def Sent.abort (s : Sent) : Sent := if s.status = .pending then { s with status := .aborted } else s

inductive Reply where
  | response (status : Nat) (body : Str)
  | error (message : Str)

/-- A response that is not ok is an error. -/
def Reply.status : Reply → Status
  | .response status body =>
    if 200 ≤ status ∧ status ≤ 299 then .answered body else .failed ("HTTP ".toList ++ (toString status).toList)
  | .error message => .failed message

structure Hook (Line : Type) where
  args : Args
  lines : List Line := []
  isLoading : Bool := false
  error : Option Str := none
  loadingStartedAt : Int := 0
  /-- The arguments that `fetchLogs` has closed over, also the one of the interval. -/
  closure : Args
  /-- The newest first. -/
  requests : List Sent := []
  timers : Nat := 0

inductive Event where
  | commit (args : Args) (now : Int)
  | interval (now : Int)
  | refetch (now : Int)
  | settles (age : Nat) (reply : Reply) (now : Int)
  | timer

section Step
variable {Line : Type} (parseLine : Str → Option Line)

def parseBody (body : Str) : List Line := (lines body).filterMap fun raw =>
  let t := trim raw
  if t = [] then none else parseLine t

namespace Hook

/-- `controllerRef.current?.abort()` -/
def abort (h : Hook Line) : Hook Line :=
  match h.requests with
  | [] => h
  | current :: older => { h with requests := current.abort :: older }

def fetchLogs (h : Hook Line) (now : Int) : Hook Line :=
  { h.abort with
    requests := { args := h.closure, request := request h.closure now } :: h.abort.requests
    isLoading := true
    loadingStartedAt := now
    error := none }

def doneLoading (h : Hook Line) (now : Int) : Hook Line :=
  if now - h.loadingStartedAt < 300 then { h with timers := h.timers + 1 } else { h with isLoading := false }

/-- The effects after a render with these arguments. -/
def commit (h : Hook Line) (args : Args) (now : Int) : Hook Line :=
  let rendered := { h with args }
  let fetched := if args.deps = h.closure.deps then rendered else { rendered.abort with closure := args }.fetchLogs now
  if args.config.id = h.args.config.id then fetched else { fetched with lines := [] }

def settle (h : Hook Line) (age : Nat) (sent : Sent) (reply : Reply) (now : Int) : Hook Line :=
  let settled := { h with requests := h.requests.set age { sent with status := reply.status } }
  match reply.status with
  | .answered body => { settled with lines := parseBody parseLine body }.doneLoading now
  | .failed message => { settled with error := some message }.doneLoading now
  | _ => settled

/-- The first render and its effects. -/
def mount (args : Args) (now : Int) : Hook Line := ({ args, closure := args } : Hook Line).fetchLogs now

def step (h : Hook Line) : Event → Option (Hook Line)
  | .commit args now => some (h.commit args now)
  | .interval now => some (h.fetchLogs now)
  | .refetch now => if h.isLoading then none else some (h.fetchLogs now)
  | .settles age reply now => match h.requests[age]? with
    | some sent => if sent.status = .pending then some (h.settle parseLine age sent reply now) else none
    | none => none
  | .timer => if h.timers = 0 then none else some { h with timers := h.timers - 1, isLoading := false }

end Hook

/-! ### What is shown -/

/-- The lines of an answer for this service, or none. -/
def Belong (h : Hook Line) : Prop :=
  h.lines = [] ∨ ∃ sent ∈ h.requests, sent.args.config.id = h.args.config.id ∧
    ∃ body, sent.status = .answered body ∧ h.lines = parseBody parseLine body

/-- What the newest request has come to is shown. -/
def Reflects (h : Hook Line) : Status → Prop
  | .pending => h.error = none
  | .aborted => False
  | .answered body => h.error = none ∧ h.lines = parseBody parseLine body
  | .failed message => h.error = some message

/-- The newest request is for the arguments of the page, and no other one can change it any more. -/
structure Latest (h : Hook Line) (sent : Sent) (older : List Sent) : Prop where
  requests : h.requests = sent :: older
  current : sent.args.deps = h.args.deps
  quiet : ∀ s ∈ older, s.status ≠ .pending
  reflects : Reflects parseLine h sent.status
  loading : h.isLoading = true → sent.status = .pending ∨ 0 < h.timers

structure Sound (h : Hook Line) : Prop where
  belong : Belong parseLine h
  closure : h.closure.deps = h.args.deps
  latest : ∃ sent older, Latest parseLine h sent older

variable {parseLine : Str → Option Line} {h h' : Hook Line} {sent : Sent} {args : Args} {now : Int}
  {events : List Event}

theorem Sent.abort_status (s : Sent) : s.abort.status ≠ .pending := by
  unfold Sent.abort
  split
  · simp
  · assumption

theorem abort_requests (h : Hook Line) : h.abort.requests = h.requests.modifyHead Sent.abort := by
  unfold Hook.abort
  split <;> simp_all

theorem abort_quiet {older : List Sent} (requests : h.requests = sent :: older)
    (quiet : ∀ s ∈ older, s.status ≠ .pending) :
    ∀ s ∈ h.abort.requests, s.status ≠ .pending := by
  intro s member
  rw [abort_requests, requests, List.modifyHead_cons] at member
  rcases List.mem_cons.mp member with rfl | member
  · exact sent.abort_status
  · exact quiet s member

theorem aborted_quiet (quiet : ∀ s ∈ h.requests, s.status ≠ .pending) :
    ∀ s ∈ h.abort.requests, s.status ≠ .pending := by
  cases requests : h.requests with
  | nil =>
    rw [abort_requests, requests]
    exact fun s member => absurd member List.not_mem_nil
  | cons current older =>
    rw [requests] at quiet
    exact abort_quiet requests fun s member => quiet s (List.mem_cons_of_mem _ member)

theorem clear_fetchLogs (h : Hook Line) (now : Int) :
    ({ h.fetchLogs now with lines := [] } : Hook Line) = Hook.fetchLogs { h with lines := [] } now := by
  obtain ⟨_, _, _, _, _, _, requests, _⟩ := h
  cases requests <;> rfl

theorem mem_abort (member : sent ∈ h.requests) (settled : sent.status ≠ .pending) : sent ∈ h.abort.requests := by
  rw [abort_requests]
  cases requests : h.requests with
  | nil => simp [requests] at member
  | cons current older =>
    rw [requests] at member
    rw [List.modifyHead_cons]
    rcases List.mem_cons.mp member with rfl | member
    · rw [Sent.abort, if_neg settled]
      exact List.mem_cons_self
    · exact List.mem_cons_of_mem _ member

/-- A new request, when no older one is pending that it does not abort. -/
theorem fetchLogs_sound (belong : Belong parseLine h) (closure : h.closure.deps = h.args.deps)
    (quiet : ∀ s ∈ h.abort.requests, s.status ≠ .pending) : Sound parseLine (h.fetchLogs now) := by
  have same : h.abort.lines = h.lines ∧ h.abort.args = h.args ∧ h.abort.closure = h.closure := by
    unfold Hook.abort
    split <;> exact ⟨rfl, rfl, rfl⟩
  obtain ⟨lines, args, closed⟩ := same
  refine ⟨?_, ?_, { args := h.closure, request := request h.closure now }, h.abort.requests, rfl, ?_, quiet, rfl,
    fun _ => .inl rfl⟩
  · rcases belong with none | ⟨s, member, service, body, answered, shown⟩
    · exact .inl (lines.trans none)
    · refine .inr ⟨s, List.mem_cons_of_mem _ (mem_abort member (by simp [answered])), ?_, body, answered,
        lines.trans shown⟩
      exact service.trans (congrArg (·.config.id) args.symm)
  · change h.abort.closure.deps = h.abort.args.deps
    rw [args, closed, closure]
  · change h.closure.deps = h.abort.args.deps
    rw [args, closure]

theorem mount_sound : Sound parseLine (Hook.mount args now) :=
  fetchLogs_sound (.inl rfl) rfl fun _ member => absurd member List.not_mem_nil

theorem Sound.quiet (sound : Sound parseLine h) : ∀ s ∈ h.abort.requests, s.status ≠ .pending := by
  obtain ⟨sent, older, latest⟩ := sound.latest
  exact abort_quiet latest.requests latest.quiet

theorem Args.service_of_deps {a b : Args} (same : a.deps = b.deps) : a.config.id = b.config.id := congrArg Prod.fst same

/-- Either the arguments count as the same, or there is a request for the new ones; lines of another service are
cleared. -/
theorem commit_sound (sound : Sound parseLine h) : Sound parseLine (h.commit args now) := by
  have quiet := sound.quiet
  unfold Hook.commit
  by_cases unchanged : args.deps = h.closure.deps
  · have deps := unchanged.trans sound.closure
    dsimp only
    rw [if_pos unchanged, if_pos (Args.service_of_deps deps)]
    obtain ⟨sent, older, latest⟩ := sound.latest
    refine ⟨?_, unchanged.symm, sent, older, latest.requests, latest.current.trans deps.symm, latest.quiet,
      latest.reflects, latest.loading⟩
    rcases sound.belong with none | ⟨s, member, service, shown⟩
    · exact .inl none
    · exact .inr ⟨s, member, service.trans (Args.service_of_deps deps).symm, shown⟩
  · dsimp only
    rw [if_neg unchanged]
    have kept : ({ h with args }.abort : Hook Line).args = args ∧
      ({ h with args }.abort : Hook Line).lines = h.lines := by
      unfold Hook.abort
      split <;> exact ⟨rfl, rfl⟩
    have requests : ({ h with args }.abort : Hook Line).requests = h.abort.requests := by rw [abort_requests,
      abort_requests]
    have still : ∀ s ∈ ({ ({ h with args }.abort : Hook Line) with closure := args }).abort.requests,
      s.status ≠ .pending :=
      aborted_quiet (requests ▸ quiet)
    split
    · rename_i same
      refine fetchLogs_sound ?_ (congrArg Args.deps kept.1.symm) still
      rcases sound.belong with none | ⟨s, member, service, body, answered, shown⟩
      · exact .inl (kept.2.trans none)
      · refine .inr ⟨s, ?_, ?_, body, answered, kept.2.trans shown⟩
        · change s ∈ ({ h with args }.abort : Hook Line).requests
          exact requests ▸ mem_abort member (by simp [answered])
        · exact (service.trans same.symm).trans (congrArg (·.config.id) kept.1.symm)
    · rw [clear_fetchLogs]
      refine fetchLogs_sound (.inl rfl) (congrArg Args.deps kept.1.symm) ?_
      rw [abort_requests] at still ⊢
      exact still

/-- The newest request has settled, as is shown. -/
theorem doneLoading_sound {older : List Sent} (belong : Belong parseLine h) (closure : h.closure.deps = h.args.deps)
    (requests : h.requests = sent :: older) (current : sent.args.deps = h.args.deps)
    (quiet : ∀ s ∈ older, s.status ≠ .pending)
    (reflects : Reflects parseLine h sent.status) : Sound parseLine (h.doneLoading now) := by
  unfold Hook.doneLoading
  split
  · exact ⟨belong, closure, sent, older, requests, current, quiet, reflects, fun _ => .inr (Nat.succ_pos _)⟩
  · exact ⟨belong, closure, sent, older, requests, current, quiet, reflects, fun loading => by cases loading⟩

theorem Reply.settled (reply : Reply) : (∃ body, reply.status = .answered body) ∨
    ∃ message, reply.status = .failed message := by
  cases reply with
  | response status body =>
    by_cases ok : 200 ≤ status ∧ status ≤ 299
    · exact .inl ⟨body, if_pos ok⟩
    · exact .inr ⟨_, if_neg ok⟩
  | error message => exact .inr ⟨message, rfl⟩

/-- No other request than the newest can settle. -/
theorem settle_sound {age : Nat} {reply : Reply} (sound : Sound parseLine h) (there : h.requests[age]? = some sent)
    (pending : sent.status = .pending) : Sound parseLine (h.settle parseLine age sent reply now) := by
  obtain ⟨current, older, latest⟩ := sound.latest
  obtain ⟨rfl, rfl⟩ : age = 0 ∧ sent = current := by
    rw [latest.requests] at there
    cases age with
    | zero => exact ⟨rfl, (Option.some.inj there).symm⟩
    | succ n => exact absurd pending (latest.quiet sent (List.mem_of_getElem? there))
  have requests : h.requests.set 0 { sent with status := reply.status } = { sent with status := reply.status } ::
    older := by
    rw [latest.requests, List.set_cons_zero]
  have noError : h.error = none := by
    have reflects := latest.reflects
    rw [pending] at reflects
    exact reflects
  unfold Hook.settle
  rcases reply.settled with ⟨body, answered⟩ | ⟨message, failed⟩
  · rw [answered] at requests ⊢
    have newest : { sent with status := .answered body } ∈ h.requests.set 0 { sent with status := .answered body } :=
      requests ▸ List.mem_cons_self
    exact doneLoading_sound (.inr ⟨_, newest, Args.service_of_deps latest.current, body, rfl,
      rfl⟩) sound.closure requests
      latest.current latest.quiet ⟨noError, rfl⟩
  · rw [failed] at requests ⊢
    refine doneLoading_sound ?_ sound.closure requests latest.current latest.quiet rfl
    rcases sound.belong with none | ⟨s, member, service, body, answered, shown⟩
    · exact .inl none
    · refine .inr ⟨s, ?_, service, body, answered, shown⟩
      rw [latest.requests] at member
      rcases List.mem_cons.mp member with rfl | member
      · rw [pending] at answered
        cases answered
      · exact requests ▸ List.mem_cons_of_mem _ member

theorem step_sound {e : Event} (sound : Sound parseLine h) (stepped : h.step parseLine e = some h') :
    Sound parseLine h' := by
  cases e with
  | commit args now =>
    cases stepped
    exact commit_sound sound
  | interval now =>
    cases stepped
    exact fetchLogs_sound sound.belong sound.closure sound.quiet
  | refetch now =>
    simp only [Hook.step] at stepped
    split at stepped <;> cases stepped
    exact fetchLogs_sound sound.belong sound.closure sound.quiet
  | settles age reply now =>
    simp only [Hook.step] at stepped
    split at stepped
    · split at stepped <;> cases stepped
      exact settle_sound sound ‹_› ‹_›
    · cases stepped
  | timer =>
    simp only [Hook.step] at stepped
    split at stepped <;> cases stepped
    obtain ⟨sent, older, latest⟩ := sound.latest
    exact ⟨sound.belong, sound.closure, sent, older, latest.requests, latest.current, latest.quiet, latest.reflects,
      fun loading => by cases loading⟩

/-- In every run, with answers in any order: the lines shown are an answer for the service of the page; when the
newest request has an answer or an error, that is what is shown, and it was sent for the arguments of the page; and
the loading state ends. -/
theorem page_shows (ran : Trace.run (Hook.step parseLine) (Hook.mount args now) events = some h) : Sound parseLine h :=
  Trace.run_history (P := fun _ h => Sound parseLine h) mount_sound (fun _ _ _ _ _ => step_sound) ran

/-- The answer for one service, a change to another one, and its request that fails. -/
theorem page_shows_failure : ∃ h : Hook Str,
    Trace.run (Hook.step some) (Hook.mount ⟨⟨['a'], []⟩, [], [], ['5', 'm'], 9⟩ 0)
    [.settles 0 (.response 200 ['x']) 400,
      .commit ⟨⟨['b'], []⟩, [], [], ['5', 'm'], 9⟩ 500, .settles 0 (.response 500 []) 600, .timer] = some h ∧
      Sound some h := by
  have ran : Trace.run (Hook.step some) (Hook.mount ⟨⟨['a'], []⟩, [], [], ['5', 'm'], 9⟩ 0)
    [.settles 0 (.response 200 ['x']) 400,
      .commit ⟨⟨['b'], []⟩, [], [], ['5', 'm'], 9⟩ 500, .settles 0 (.response 500 []) 600, .timer] = some _ := rfl
  exact ⟨_, ran, page_shows ran⟩

end Step

end HomelabDaemon.LogsPage
