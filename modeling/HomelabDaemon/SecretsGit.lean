import HomelabDaemon.Concurrency.Alone
import HomelabDaemon.Concurrency.Replay
import HomelabDaemon.Secrets

/-!
# Secrets in the repository

`PUT` and `DELETE` commit and push `secrets.yaml` after sops has changed it, all without a lock. Git itself is a
parameter, with what its three commands document about the file.
-/

namespace HomelabDaemon.SecretsGit
open Concurrency Program Secrets

/-- What `secrets.yaml` holds in the working tree, in the index, at `HEAD` and in the remote branch. -/
structure Versions where
  worktree : Contents
  index : Contents
  head : Contents
  remote : Contents

structure Git (R : Type) where
  versions : R → Versions
  write : R → Contents → R
  /-- A command that succeeds, by its arguments. -/
  run : R → List String → R

section Commands
variable (resolveRepoPath : String)

def add : List String := ["-C", resolveRepoPath, "add", secretsYamlPath resolveRepoPath]

def commit (message : String) : List String := ["-C", resolveRepoPath, "commit", "-m", message]

def push : List String := ["-C", resolveRepoPath, "push"]

variable {R : Type} (g : Git R)

structure Git.Documented : Prop where
  write : ∀ r contents, g.versions (g.write r contents) = { g.versions r with worktree := contents }
  add : ∀ r, g.versions (g.run r (add resolveRepoPath)) = { g.versions r with index := (g.versions r).worktree }
  commit : ∀ r message,
    g.versions (g.run r (commit resolveRepoPath message)) = { g.versions r with head := (g.versions r).index }
  push : ∀ r, g.versions (g.run r (push resolveRepoPath)) = { g.versions r with remote := (g.versions r).head }

/-- What is done by hand in the repository, and what a command has done that fails. -/
inductive Outside where
  | edit (contents : Contents)
  | git (args : List String)

abbrev Moment := Concurrency.Event Secrets.Op Secrets.Op.Ans Secrets.Request Outside

abbrev Served (R : Type) := Conf Secrets.Op Secrets.Op.Ans R Secrets.Request

def Git.effect (r : R) : (op : Secrets.Op) → op.Ans → R
  | .sopsSet _ _, sops => g.write r sops.contents
  | .git args, failure => if failure.isNone then g.run r args else r
  | .chown, _ | .recordTimestamp _, _ | .writeFlag, _ | .removeFlag, _ | .nhStart, _ | .nhWait _, _ => r

def Git.outside (r : R) : Outside → R
  | .edit contents => g.write r contents
  | .git args => g.run r args

/-- The requests to the daemon at work on the repository. A daemon that is killed leaves its requests where they are. -/
def machine : Machine Secrets.Op Secrets.Op.Ans R Secrets.Request Outside where
  permits _ _ _ := true
  effect := g.effect
  code request := Secrets.handle resolveRepoPath request >>= fun _ => done ()
  forks _ := []
  arrives _ := true
  envPermits _ _ := true
  envEffect := g.outside

/-- The file goes to the index from the working tree only, from there to `HEAD`, and from there to the remote branch. -/
structure Versions.Onward (v v' : Versions) : Prop where
  index : v'.index = v.index ∨ v'.index = v.worktree
  head : v'.head = v.head ∨ v'.head = v.index
  remote : v'.remote = v.remote ∨ v'.remote = v.head

/-- Git by hand only takes the file on, as add, commit and push do, and not a reset or a pull. -/
def ByHand (_ : List Moment) (c : Served R) (e : Moment) : Prop :=
  ∀ args, e = .env (.git args) → (g.versions c.world).Onward (g.versions (g.run c.world args))

end Commands

/-! ### What a successful request has done -/

def jsonPath (service var : Strings.Str) : String :=
  "[\"" ++ String.ofList service ++ "\"][\"" ++ String.ofList var ++ "\"]"

/-- The edit that a request asks sops for. -/
inductive Asks : Secrets.Request → String → String → Prop where
  | put {name value : String} {service var : Strings.Str}
      (named : Strings.cut ['/'] name.toList = some (service, var)) :
    Asks (.put name (some value)) (jsonPath service var) (Secrets.quoted value)
  | delete {name : String} {service var : Strings.Str} (named : Strings.cut ['/'] name.toList = some (service, var)) :
    Asks (.delete name) (jsonPath service var) (Secrets.quoted "")

abbrev Acts := Past Secrets.Op Secrets.Op.Ans

/-- Sops has changed the file, and git has added, committed and pushed it in this order; the acts are newest first. -/
inductive Published (repo path stdin : String) (sops : Sops) : Acts → Prop where
  | intro {message : String} {before after : Acts} : Published repo path stdin sops
      (after ++ ⟨.git (push repo), none⟩ :: ⟨.git (commit repo message), none⟩ :: ⟨.git (add repo), none⟩ ::
        ⟨.chown, ()⟩ :: ⟨.sopsSet path stdin, sops⟩ :: before)

theorem sopsSet_path {name value : String} {past past' : Acts} (h : (sopsSet name value).Path past none past') :
    ∃ service var sops, Strings.cut ['/'] name.toList = some (service, var) ∧
      past' = ⟨.chown, ()⟩ :: ⟨.sopsSet (jsonPath service var) (Secrets.quoted value), sops⟩ :: past := by
  unfold sopsSet at h
  cases named : Strings.cut ['/'] name.toList with
  | none =>
    rw [named] at h
    cases h.1
  | some parts =>
    obtain ⟨service, var⟩ := parts
    rw [named] at h
    obtain ⟨sops, mid, ran, h⟩ := path_bind.mp h
    obtain rfl := path_perform.mp ran
    cases failed : sops.failure with
    | some failure =>
      rw [failed] at h
      cases h.1
    | none =>
      rw [failed] at h
      obtain ⟨_, _, rfl⟩ := h
      exact ⟨service, var, sops, rfl, rfl⟩

theorem git_path {repo message : String} {past past' : Acts}
    (h : (gitCommitAndPush repo message).Path past none past') :
    past' = ⟨.git (push repo), none⟩ :: ⟨.git (commit repo message), none⟩ :: ⟨.git (add repo), none⟩ :: past := by
  obtain ⟨added, h⟩ := h
  cases added with
  | some failure => cases h.1
  | none =>
    obtain ⟨committed, h⟩ := h
    cases committed with
    | some failure => cases h.1
    | none =>
      obtain ⟨pushed, h⟩ := h
      cases pushed with
      | some failure => cases h.1
      | none => exact h.2

/-- The part that both handlers share. -/
theorem change_path {repo name value message : String} {rest : Secrets.Prog Secrets.Response} {past : Acts}
    (h : (sopsSet name value >>= fun error => match error with
      | some error => done (.httpError error 500)
      | none => gitCommitAndPush repo message >>= fun error => match error with
        | some error => done (.httpError error 500)
        | none => rest).Path [] .pending past) :
    ∃ service var sops mid, Strings.cut ['/'] name.toList = some (service, var) ∧ rest.Path mid .pending past ∧
      ∀ after, Published repo (jsonPath service var) (Secrets.quoted value) sops (after ++ mid) := by
  obtain ⟨error, mid, set, h⟩ := path_bind.mp h
  cases error with
  | some error => cases h.1
  | none =>
    obtain ⟨service, var, sops, named, rfl⟩ := sopsSet_path set
    obtain ⟨error, mid, commits, h⟩ := path_bind.mp h
    cases error with
    | some error => cases h.1
    | none =>
      obtain rfl := git_path commits
      exact ⟨service, var, sops, _, named, h, fun after => .intro⟩

theorem handle_path {repo : String} {request : Secrets.Request} {past : Acts}
    (h : (Secrets.handle repo request).Path [] .pending past) :
    ∃ path stdin sops, Asks request path stdin ∧ Published repo path stdin sops past := by
  cases request with
  | put name value =>
    cases value with
    | none => cases h.1
    | some value =>
      by_cases blank : value = ""
      · subst blank
        cases h.1
      · rw [Secrets.handle, handlePut] at h
        · obtain ⟨service, var, sops, mid, named, ends, published⟩ := change_path h
          obtain ⟨_, _, _, rfl⟩ := ends
          exact ⟨_, _, sops, .put named, published [_, _]⟩
        · exact blank
  | delete name =>
    obtain ⟨service, var, sops, mid, named, ends, published⟩ := change_path h
    obtain ⟨_, _, rfl⟩ := ends
    exact ⟨_, _, sops, .delete named, published [_]⟩
  | deploy =>
    obtain ⟨built, mid, _, h⟩ := path_bind.mp h
    obtain ⟨nh, mid, _, h⟩ := path_bind.mp h
    cases failed : nh.error with
    | some error =>
      rw [failed] at h
      cases h.1
    | none =>
      rw [failed] at h
      obtain ⟨_, h, _⟩ := h
      cases h

/-! ### The file along a history -/

section Runs
variable {R : Type} {g : Git R} {resolveRepoPath : String} {start : R}

/-- The commands of the handlers. -/
def Used (resolveRepoPath : String) : Secrets.Op → Prop
  | .git args => args = add resolveRepoPath ∨ (∃ message, args = commit resolveRepoPath message) ∨
    args = push resolveRepoPath
  | _ => True

theorem sopsSet_uses (name value : String) : (sopsSet name value).Uses (Used resolveRepoPath) := by
  unfold sopsSet
  split
  · exact .done _
  · refine .bind (.perform trivial) fun sops => ?_
    split
    · exact .done _
    · exact .bind (.perform trivial) fun _ => .done _

theorem gitCommitAndPush_uses (message : String) :
    (gitCommitAndPush resolveRepoPath message).Uses (Used resolveRepoPath) := by
  refine ⟨.inl rfl, fun added => ?_⟩
  cases added with
  | some failure => trivial
  | none =>
    refine ⟨.inr (.inl ⟨message, rfl⟩), fun committed => ?_⟩
    cases committed with
    | some failure => trivial
    | none =>
      refine ⟨.inr (.inr rfl), fun pushed => ?_⟩
      cases pushed <;> trivial

theorem change_uses {name value message : String} {rest : Secrets.Prog Secrets.Response}
    (used : rest.Uses (Used resolveRepoPath)) :
    (sopsSet name value >>= fun error => match error with
      | some error => done (.httpError error 500)
      | none => gitCommitAndPush resolveRepoPath message >>= fun error => match error with
        | some error => done (.httpError error 500)
        | none => rest).Uses (Used resolveRepoPath) := by
  refine .bind (sopsSet_uses name value) fun error => ?_
  cases error with
  | some error => exact .done _
  | none =>
    refine .bind (gitCommitAndPush_uses message) fun error => ?_
    cases error with
    | some error => exact .done _
    | none => exact used

theorem handle_uses (request : Secrets.Request) :
    (Secrets.handle resolveRepoPath request).Uses (Used resolveRepoPath) := by
  cases request with
  | put name value =>
    cases value with
    | none => exact .done _
    | some value =>
      by_cases blank : value = ""
      · subst blank
        exact .done _
      · rw [Secrets.handle, handlePut]
        · exact change_uses ⟨trivial, fun _ => ⟨trivial, fun _ => trivial⟩⟩
        · exact blank
  | delete name => exact change_uses ⟨trivial, fun _ => trivial⟩
  | deploy =>
    refine ⟨trivial, fun built => ⟨trivial, fun nh => ?_⟩⟩
    dsimp only [Program.bind]
    split
    · trivial
    · exact ⟨trivial, fun _ => trivial⟩

theorem Versions.Onward.refl (v : Versions) : v.Onward v := ⟨.inl rfl, .inl rfl, .inl rfl⟩

theorem Git.Documented.write_onward (documented : g.Documented resolveRepoPath) (r : R) (contents : Contents) :
    (g.versions r).Onward (g.versions (g.write r contents)) := by
  rw [documented.write]
  exact ⟨.inl rfl, .inl rfl, .inl rfl⟩

theorem Git.Documented.effect_onward (documented : g.Documented resolveRepoPath) (r : R) {op : Secrets.Op}
    (ans : op.Ans) (used : Used resolveRepoPath op) : (g.versions r).Onward (g.versions (g.effect r op ans)) := by
  cases op with
  | sopsSet path stdin => exact documented.write_onward r _
  | git args =>
    unfold Git.effect
    dsimp only
    split_ifs
    · obtain rfl | ⟨message, rfl⟩ | rfl := used
      · rw [documented.add]
        exact ⟨.inr rfl, .inl rfl, .inl rfl⟩
      · rw [documented.commit]
        exact ⟨.inl rfl, .inr rfl, .inl rfl⟩
      · rw [documented.push]
        exact ⟨.inl rfl, .inl rfl, .inr rfl⟩
    · exact .refl _
  | _ => exact .refl _

variable (g resolveRepoPath start) in
/-- What the file is after a history. -/
def after (hist : List Moment) : Versions := g.versions ((machine resolveRepoPath g).replay start hist)

theorem run_onward (documented : g.Documented resolveRepoPath) {hist : List Moment} {c : Served R}
    (run : (machine resolveRepoPath g).Run (ByHand g) ((machine resolveRepoPath g).init start []) hist c) :
    ∀ e earlier, e :: earlier <:+ hist →
      (after g resolveRepoPath start earlier).Onward (after g resolveRepoPath start (e :: earlier)) := by
  induction run with
  | start =>
    intro e earlier part
    cases List.suffix_nil.mp part
  | @step hist c c' e before met next ih =>
    intro e' earlier part
    rcases List.suffix_cons_iff.mp part with same | part
    · obtain ⟨rfl, rfl⟩ := List.cons.inj same
      have world : c.world = (machine resolveRepoPath g).replay start earlier := before.replay
      cases next with
      | @act i who op k ans at_ permitted =>
        have used : (Program.call op k).Uses (Used resolveRepoPath) :=
          Machine.Run.threads (fun _ code => code.Uses (Used resolveRepoPath))
            (fun who => (handle_uses who).bind fun _ => .done _) (fun _ _ _ ans used => used.2 ans) before at_
        exact documented.effect_onward _ ans used.1
      | @env move permitted =>
        cases move with
        | edit contents => exact documented.write_onward _ contents
        | git args =>
          have onward := met args rfl
          rw [world] at onward
          exact onward
      | arrive arrives => exact .refl _
    · exact ih e' earlier part

variable (g resolveRepoPath start) in
/-- The file has had these contents since `mark`. -/
def Since (mark hist : List Moment) (contents : Contents) : Prop :=
  ∃ had, mark <:+ had ∧ had <:+ hist ∧ (after g resolveRepoPath start had).worktree = contents

theorem Since.now {mark hist : List Moment} (part : mark <:+ hist) :
    Since g resolveRepoPath start mark hist (after g resolveRepoPath start hist).worktree :=
  ⟨hist, part, List.suffix_rfl, rfl⟩

theorem Since.mark {mark hist : List Moment} {contents : Contents}
    (h : Since g resolveRepoPath start mark hist contents) : mark <:+ hist := by
  obtain ⟨had, from_, part, -⟩ := h
  exact from_.trans part

theorem Since.cons {mark hist : List Moment} {contents : Contents}
    (h : Since g resolveRepoPath start mark hist contents)
    (e : Moment) : Since g resolveRepoPath start mark (e :: hist) contents := by
  obtain ⟨had, from_, part, same⟩ := h
  exact ⟨had, from_, part.trans (List.suffix_cons e hist), same⟩

variable (g resolveRepoPath start) in
structure Added (mark hist : List Moment) : Prop where
  index : Since g resolveRepoPath start mark hist (after g resolveRepoPath start hist).index

variable (g resolveRepoPath start) in
structure Committed (mark hist : List Moment) : Prop extends Added g resolveRepoPath start mark hist where
  head : Since g resolveRepoPath start mark hist (after g resolveRepoPath start hist).head

variable (g resolveRepoPath start) in
structure PushedOn (mark hist : List Moment) : Prop extends Committed g resolveRepoPath start mark hist where
  remote : Since g resolveRepoPath start mark hist (after g resolveRepoPath start hist).remote

section Steps
variable {mark earlier : List Moment} {e : Moment}
  (onward : (after g resolveRepoPath start earlier).Onward (after g resolveRepoPath start (e :: earlier)))
include onward

theorem Added.cons (h : Added g resolveRepoPath start mark earlier) :
    Added g resolveRepoPath start mark (e :: earlier) := by
  constructor
  obtain same | taken := onward.index
  · rw [same]
    exact h.index.cons e
  · rw [taken]
    exact (Since.now h.index.mark).cons e

theorem Committed.cons (h : Committed g resolveRepoPath start mark earlier) :
    Committed g resolveRepoPath start mark (e :: earlier) := by
  refine ⟨h.toAdded.cons onward, ?_⟩
  obtain same | taken := onward.head
  · rw [same]
    exact h.head.cons e
  · rw [taken]
    exact h.index.cons e

theorem PushedOn.cons (h : PushedOn g resolveRepoPath start mark earlier) :
    PushedOn g resolveRepoPath start mark (e :: earlier) := by
  refine ⟨h.toCommitted.cons onward, ?_⟩
  obtain same | taken := onward.remote
  · rw [same]
    exact h.remote.cons e
  · rw [taken]
    exact h.head.cons e

end Steps

/-- The pushed `secrets.yaml` is what the request's own sops run has left, or what the file has been later. -/
def Pushed (g : Git R) (resolveRepoPath : String) (start : R) (hist : List Moment) (w : R) (i : Nat)
    (request : Secrets.Request) : Prop :=
  ∃ path stdin sops who earlier, Asks request path stdin ∧ .act i who (.sopsSet path stdin) sops :: earlier <:+ hist ∧
    (after g resolveRepoPath start (.act i who (.sopsSet path stdin) sops :: earlier)).worktree = sops.contents ∧
    Since g resolveRepoPath start (.act i who (.sopsSet path stdin) sops :: earlier) hist (g.versions w).remote

theorem published_pushed (documented : g.Documented resolveRepoPath) {hist : List Moment} {c : Served R}
    (run : (machine resolveRepoPath g).Run (ByHand g) ((machine resolveRepoPath g).init start []) hist c) {i : Nat}
    {path stdin : String} {sops : Sops} (published : Published resolveRepoPath path stdin sops (past i hist)) :
    ∃ who earlier, .act i who (.sopsSet path stdin) sops :: earlier <:+ hist ∧
      PushedOn g resolveRepoPath start (.act i who (.sopsSet path stdin) sops :: earlier) hist := by
  generalize did : past i hist = acts at published
  obtain @⟨message, before, rest⟩ := published
  -- the histories before the push, the commit, the add and the sops run, each a part of the one before
  obtain ⟨afterPush, pusher, atPush, split₁, did⟩ := past_split rest did
  obtain ⟨afterCommit, committer, atCommit, split₂, did⟩ := past_split [] did
  obtain ⟨afterAdd, adder, atAdd, split₃, did⟩ := past_split [] did
  obtain ⟨afterSet, who, earlier, split₄, -⟩ := past_split ([⟨.chown, ()⟩] : Acts) did
  let mark : List Moment := .act i who (.sopsSet path stdin) sops :: earlier
  have pushes : .act i pusher (.git (push resolveRepoPath)) none :: atPush <:+ hist := ⟨afterPush, split₁.symm⟩
  have commits : .act i committer (.git (commit resolveRepoPath message)) none :: atCommit <:+ atPush :=
    ⟨afterCommit, split₂.symm⟩
  have adds : .act i adder (.git (add resolveRepoPath)) none :: atAdd <:+ atCommit := ⟨afterAdd, split₃.symm⟩
  have sets : mark <:+ atAdd := ⟨afterSet, split₄.symm⟩
  have beforePush : atPush <:+ hist := (List.suffix_cons _ _).trans pushes
  have beforeCommit : atCommit <:+ hist := ((List.suffix_cons _ _).trans commits).trans beforePush
  have beforeAdd : atAdd <:+ hist := ((List.suffix_cons _ _).trans adds).trans beforeCommit
  have onward := run_onward documented run
  have added : Added g resolveRepoPath start mark (.act i adder (.git (add resolveRepoPath)) none :: atAdd) := by
    constructor
    have taken := congrArg Versions.index (documented.add ((machine resolveRepoPath g).replay start atAdd))
    exact taken ▸ (Since.now sets).cons _
  have added : Added g resolveRepoPath start mark atCommit :=
    suffix_keeps adds added fun e now part had => had.cons (onward e now (part.trans beforeCommit))
  have committed : Committed g resolveRepoPath start mark
      (.act i committer (.git (commit resolveRepoPath message)) none :: atCommit) := by
    refine ⟨added.cons (onward _ _ (commits.trans beforePush)), ?_⟩
    have taken := congrArg Versions.head (documented.commit ((machine resolveRepoPath g).replay start atCommit) message)
    exact taken ▸ added.index.cons _
  have committed : Committed g resolveRepoPath start mark atPush :=
    suffix_keeps commits committed fun e now part had => had.cons (onward e now (part.trans beforePush))
  have pushed : PushedOn g resolveRepoPath start mark (.act i pusher (.git (push resolveRepoPath)) none :: atPush) := by
    refine ⟨committed.cons (onward _ _ pushes), ?_⟩
    have taken := congrArg Versions.remote (documented.push ((machine resolveRepoPath g).replay start atPush))
    exact taken ▸ committed.head.cons _
  exact ⟨who, earlier, sets.trans beforeAdd,
    suffix_keeps pushes pushed fun e now part had => had.cons (onward e now part)⟩

/-- In every interleaving of requests, edits and git by hand and kills, a request that has ended has answered; and
where it answered success, its change is pushed. -/
theorem acknowledged_pushed {R : Type} (g : Git R) (resolveRepoPath : String)
    (documented : g.Documented resolveRepoPath) (start : R)
    (hist : List Moment) (c : Served R) (run : (machine resolveRepoPath g).Run (ByHand g) ⟨start, []⟩ hist c) (i : Nat)
    (request : Secrets.Request) (ended : c.pool[i]? = some ⟨request, done ()⟩) :
    ∃ response, (Secrets.handle resolveRepoPath request).Path [] response (past i hist) ∧
      (response = .pending → Pushed g resolveRepoPath start hist c.world i request) := by
  have started : (machine resolveRepoPath g).Run (ByHand g) ((machine resolveRepoPath g).init start []) hist c := run
  have finished : ((machine resolveRepoPath g).code request).Path [] () (past i hist) := started.finished ended
  obtain ⟨response, mid, handled, -, rfl⟩ := path_bind.mp finished
  refine ⟨response, handled, fun success => ?_⟩
  subst success
  obtain ⟨path, stdin, sops, asks, published⟩ := handle_path handled
  obtain ⟨who, earlier, part, pushed⟩ := published_pushed documented started published
  have world : c.world = (machine resolveRepoPath g).replay start hist := run.replay
  have wrote := congrArg Versions.worktree
    (documented.write ((machine resolveRepoPath g).replay start earlier) sops.contents)
  rw [world]
  exact ⟨path, stdin, sops, who, earlier, asks, part, wrote, pushed.remote⟩

end Runs

/-! ### Two changes at once -/

namespace Demo

/-- A git without anything else in it. -/
def git : Git Versions where
  versions v := v
  write v contents := { v with worktree := contents }
  run v
    | ["-C", _, "add", _] => { v with index := v.worktree }
    | ["-C", _, "commit", "-m", _] => { v with head := v.index }
    | ["-C", _, "push"] => { v with remote := v.head }
    | _ => v

theorem documented : git.Documented repo := ⟨fun _ _ => rfl, fun _ => rfl, fun _ _ => rfl, fun _ => rfl⟩

def start : Versions := { worktree := rotated, index := rotated, head := rotated, remote := rotated }

def wiped : Contents := fun _ => ""

def both : Contents := fun key => if key = ("qui", "KEY") then "key" else ""

/-- Every command succeeds. -/
def answer (contents : Contents) (_ : Versions) : (op : Secrets.Op) → op.Ans
  | .sopsSet _ _ => { contents }
  | .git _ => none
  | .chown | .recordTimestamp _ => ()
  | .writeFlag | .removeFlag => true
  | .nhStart => contents
  | .nhWait _ => {}

/-- The wipe of one secret commits and pushes what the rotation of another has added meanwhile. -/
def moves : List (Machine.Move Secrets.Request Outside Contents) :=
  [.arrive (.delete secret), .arrive (.put "qui/KEY" (some "key")), .go 0 wiped 3, .go 1 both 3, .go 0 both 3]

def noHands (_ : List Moment) (_ : Served Versions) : Moment → Bool
  | .env _ => false
  | _ => true

def isWipe : Secrets.Request → Bool
  | .delete name => name = secret
  | _ => false

def hasEnded : Secrets.Prog Unit → Bool
  | .done _ => true
  | .call _ _ => false

def shows (t : Machine.Played Secrets.Op Secrets.Op.Ans Versions Secrets.Request Outside) : Bool :=
  (t.2.pool[0]?.any fun th => isWipe th.who && hasEnded th.code) && t.2.world.remote ("caddy", "TOKEN") = "" &&
    t.2.world.remote ("qui", "KEY") = "key"

theorem plays : ((Machine.play (machine repo git) answer noHands ([], ⟨start, []⟩) moves).any shows) = true := by
  decide +kernel

theorem ended_of_shows {t : Machine.Played Secrets.Op Secrets.Op.Ans Versions Secrets.Request Outside}
    (shown : shows t = true) :
    t.2.pool[0]? = some ⟨.delete secret, done ()⟩ ∧ t.2.world.remote ("caddy", "TOKEN") = "" ∧
    t.2.world.remote ("qui", "KEY") = "key" := by
  simp only [shows, Bool.and_eq_true, Option.any_eq_true, decide_eq_true_eq] at shown
  obtain ⟨⟨⟨⟨who, code⟩, found, wipes, ends⟩, wiped⟩, rotated⟩ := shown
  refine ⟨?_, wiped, rotated⟩
  rw [found]
  cases who with
  | delete name =>
    obtain rfl : name = secret := of_decide_eq_true wipes
    cases code with
    | done => rfl
    | call => cases ends
  | put => cases wipes
  | deploy => cases wipes

theorem byHand_of_noHands (hist : List Moment) (c : Served Versions) (e : Moment) (none_ : noHands hist c e = true) :
    ByHand git hist c e := by
  rintro args rfl
  cases none_

end Demo

/-- The wipe is pushed together with the rotation that came in between. -/
theorem acknowledged_pushed_wipe : ∃ hist c, (machine repo Demo.git).Run (ByHand Demo.git) ⟨Demo.start, []⟩ hist c ∧
    c.world.remote ("caddy", "TOKEN") = "" ∧ c.world.remote ("qui", "KEY") = "key" ∧
    ∃ response, (Secrets.handle repo (.delete secret)).Path [] response (past 0 hist) ∧
      (response = .pending → Pushed Demo.git repo Demo.start hist c.world 0 (.delete secret)) := by
  obtain ⟨hist, c, run, shown⟩ := Machine.play_any _ _ _ Demo.plays
  obtain ⟨ended, wiped, rotated⟩ := Demo.ended_of_shows shown
  have run := run.weaken Demo.byHand_of_noHands
  exact ⟨hist, c, run, wiped, rotated, acknowledged_pushed Demo.git repo Demo.documented Demo.start hist c run 0
    (.delete secret) ended⟩

end HomelabDaemon.SecretsGit
