/-
# Commands.CommitPushPr -- `/commit-push-pr` over a git repository

Of a repository there is what the command's own questions are answered from: the branches,
what HEAD names, the index, and the branch that `origin/HEAD` names.  `git symbolic-ref`,
`git branch --show-current`, `git show-ref` and `git switch -c` are read off these.  What
depends on more, on commits, on the working tree, on hooks and on the network, is a
parameter (`Tools`), and so are the temporary files and `gh`.

A program that cannot be started is taken as one that fails.  Names are bytes, of which the
command makes texts.
-/
import Openyak.Runtime.InstalledFile
import Openyak.Theory.Action
import Openyak.Theory.Lines

namespace Openyak.Commands

open Openyak.Theory
open Openyak.Theory.Text (trim trimMatches fromUtf8Lossy)
open Openyak.Theory.Utf8Stream (encode)
open Openyak.Runtime (fromUtf8)

set_option autoImplicit false

/-! ## Git -/

def bytesOf (text : String) : List UInt8 := encode text.toList

/-- What `git check-ref-format` lets be the name of a branch. -/
def IsBranchName (name : List UInt8) : Prop :=
  name ≠ [] ∧ (∀ byte ∈ name, 0x20 < byte ∧ byte ≠ 0x7F ∧ byte ∉ bytesOf "~^:?*[\\") ∧
    (∀ start ∈ ["/", "."], ¬bytesOf start <+: name) ∧
    (∀ ending ∈ ["/", ".", ".lock"], ¬bytesOf ending <:+ name) ∧
    ∀ part ∈ ["//", "/.", "..", "@\x7b", ".lock/"], ¬bytesOf part <:+: name

instance (name : List UInt8) : Decidable (IsBranchName name) :=
  inferInstanceAs (Decidable (_ ∧ _ ∧ _ ∧ _ ∧ _))

abbrev BranchName : Type := { name : List UInt8 // IsBranchName name }

/-- A branch that HEAD names may have no commit yet. -/
inductive Head (Commit : Type) where
  | branch (name : BranchName)
  | detached (commit : Commit)
  deriving DecidableEq

structure Repository (Commit Tree : Type) where
  heads : List (BranchName × Commit)
  head : Head Commit
  index : Tree
  originHead : Option BranchName

section Repository

variable {Commit Tree : Type} (repo : Repository Commit Tree)

def Repository.tip : Option Commit :=
  match repo.head with
  | .branch name => repo.heads.lookup name
  | .detached commit => some commit

/-- One of two names is a directory in the other. -/
def InTheWay (name other : List UInt8) : Prop :=
  name ++ bytesOf "/" <+: other ∨ other ++ bytesOf "/" <+: name

instance (name other : List UInt8) : Decidable (InTheWay name other) :=
  inferInstanceAs (Decidable (_ ∨ _))

/-- What `git switch -c` takes for a new branch. -/
def Repository.Creatable (name : List UInt8) : Prop :=
  IsBranchName name ∧ ¬bytesOf "-" <+: name ∧ name ≠ bytesOf "HEAD" ∧
    ∀ entry ∈ repo.heads, entry.1.1 ≠ name ∧ ¬InTheWay name entry.1.1

instance (name : List UInt8) : Decidable (repo.Creatable name) :=
  inferInstanceAs (Decidable (_ ∧ _ ∧ _ ∧ _))

/-- `git switch -c` where it succeeds: the new branch is at the commit of HEAD, or has none
either. -/
def Repository.switchTo (name : BranchName) : Repository Commit Tree :=
  { repo with
    head := .branch name
    heads := (repo.tip.map fun commit => (name, commit)).toList ++ repo.heads }

/-- The new commit is that of HEAD. -/
def Repository.advance (commit : Commit) : Repository Commit Tree :=
  match repo.head with
  | .branch name =>
      { repo with heads := (name, commit) :: repo.heads.filter fun entry => entry.1 ≠ name }
  | .detached _ => { repo with head := .detached commit }

end Repository

/-! ## Programs -/

structure Output where
  success : Bool
  stdout : List UInt8 := []
  stderr : List UInt8 := []
  deriving DecidableEq, Repr

inductive IoError where
  | other (message : List Char)
  | invalidData
  | io
  deriving DecidableEq, Repr

def commandFailure (program : String) (args : List (List Char)) (output : Output) : List Char :=
  let stderr := trim (fromUtf8Lossy output.stderr)
  let stdout := trim (fromUtf8Lossy output.stdout)
  let detail := if stderr = [] then stdout else stderr
  let failed := program.toList ++ ' ' :: List.intercalate [' '] args ++ " failed".toList
  if detail = [] then failed else failed ++ ": ".toList ++ detail

def runCommandStdout (program : String) (args : List (List Char)) (output : Output) :
    Except IoError (List Char) :=
  if output.success then
    match fromUtf8 output.stdout with
    | some text => .ok text
    | none => .error .invalidData
  else .error (.other (commandFailure program args output))

def runCommandSuccess (program : String) (args : List (List Char)) (output : Output) :
    Except IoError Unit :=
  if output.success then .ok () else .error (.other (commandFailure program args output))

def gitArgsExcludingLocalArtifacts (args : List String) : List (List Char) :=
  (args ++ ["--", ".", ":(exclude).openyak/settings.local.json",
    ":(exclude).openyak/sessions"]).map String.toList

/-- What the command calls and cannot foresee. -/
structure Tools (Commit Tree : Type) where
  ghCommand : Option (List Char)
  status : Repository Commit Tree → Output
  diffStat : Repository Commit Tree → (revisions : List Char) → Output
  add : Repository Commit Tree → Output × Tree
  reset : Repository Commit Tree → Output × Tree
  commit : Repository Commit Tree → (message : List Char) → Except Output Commit
  push : Repository Commit Tree → (branch : List Char) → Output
  /-- What `git switch -c` says where it refuses. -/
  refusal : Repository Commit Tree → (branch : List Char) → List UInt8
  writeMessage : List Char → Option (List Char)
  writeBody : List Char → Option (List Char)
  prCreate : (title bodyFile base : List Char) → Output
  prView : Output
  jsonUrl : List Char → Option (List Char)
  /-- `git diff` against HEAD fails where HEAD has no commit. -/
  unborn : ∀ repo revisions, repo.tip = none → (diffStat repo revisions).success = false

/-- The commands that are of consequence, with what HEAD named when they were run. -/
inductive Event (Commit : Type) where
  | commit (head : Head Commit)
  | push (head : Head Commit) (branch : List Char)
  | create (base : List Char)
  deriving DecidableEq

structure State (Commit Tree : Type) where
  repo : Repository Commit Tree
  events : List (Event Commit) := []

/-! ## Branches -/

section Branches

variable {Commit Tree : Type} (repo : Repository Commit Tree)

def symbolicRef : Output :=
  match repo.originHead with
  | some name => ⟨true, bytesOf "refs/remotes/origin/" ++ name.1 ++ bytesOf "\n", []⟩
  | none => ⟨false, [], bytesOf "fatal: ref refs/remotes/origin/HEAD is not a symbolic ref\n"⟩

def showCurrent : Output :=
  match repo.head with
  | .branch name => ⟨true, name.1 ++ bytesOf "\n", []⟩
  | .detached _ => ⟨true, [], []⟩

def branchExists (branch : String) : Bool :=
  repo.heads.any fun entry => entry.1.1 = bytesOf branch

def currentBranch : Except IoError (List Char) := do
  let branch ← runCommandStdout "git" ["branch".toList, "--show-current".toList] (showCurrent repo)
  if trim branch = [] then .error (.other "unable to determine current git branch".toList)
  else .ok (trim branch)

/-- `.rsplit('/').next()`. -/
def lastPart (text : List Char) : List Char := (text.reverse.takeWhile (· ≠ '/')).reverse

def fallbackBranch : Except IoError (List Char) :=
  if branchExists repo "main" then .ok "main".toList
  else if branchExists repo "master" then .ok "master".toList
  else currentBranch repo

def detectDefaultBranch : Except IoError (List Char) :=
  match runCommandStdout "git" ["symbolic-ref".toList, "refs/remotes/origin/HEAD".toList]
      (symbolicRef repo) with
  | .ok reference =>
      if lastPart (trim reference) ≠ [] then .ok (lastPart (trim reference))
      else fallbackBranch repo
  | .error _ => fallbackBranch repo

end Branches

/-- A dash for the characters between letters and digits. -/
def slugChars : (lastWasDash : Bool) → List Char → List Char
  | _, [] => []
  | lastWasDash, ch :: rest =>
      if ch.isAlphanum then ch.toLower :: slugChars false rest
      else if lastWasDash then slugChars true rest
      else '-' :: slugChars true rest

def slugify (value : List Char) : List Char :=
  let slug := trimMatches ['-'] (slugChars false value)
  if slug = [] then "change".toList else slug

/-- The variables that name the owner of a new branch. -/
structure Owner where
  safeuser : Option (List Char)
  user : Option (List Char)

def buildBranchName (owner : Owner) (hint : List Char) : List Char :=
  match (owner.safeuser.filter fun value => trim value ≠ []).or
      (owner.user.filter fun value => trim value ≠ []) with
  | some owner => owner ++ '/' :: slugify hint
  | none => slugify hint

/-! ## The command -/

structure CommitPushPrRequest where
  commitMessage : Option (List Char)
  prTitle : List Char
  prBody : List Char
  branchNameHint : List Char

/-- The name of the branch that is made where one is needed. -/
def nextBranch (owner : Owner) (request : CommitPushPrRequest) : List Char :=
  buildBranchName owner
    (if trim request.branchNameHint = [] then request.prTitle else request.branchNameHint)

inductive CommitReport where
  | skipped
  | created (messageFile message : List Char)
  deriving DecidableEq, Repr

inductive Report where
  | skipped
  | finished (result : String) (branch base bodyFile : List Char) (createdBranch : Bool)
      (url : Option (List Char)) (commitReport : Option CommitReport)
  deriving DecidableEq, Repr

/-- The first line that is a URL. -/
def parsePrUrl (stdout : List Char) : Option (List Char) :=
  ((Text.lines stdout).map trim).find? fun line =>
    "http://".toList.isPrefixOf line || "https://".toList.isPrefixOf line

section Command

variable {Commit Tree : Type} (tools : Tools Commit Tree)

/-- A program of this module. -/
abbrev CommandAction (Commit Tree α : Type) : Type := Action (State Commit Tree) IoError α

/-- A question about the repository. -/
def ask {α : Type} (question : Repository Commit Tree → Except IoError α) :
    CommandAction Commit Tree α := fun state => (question state.repo, state)

def record (event : Repository Commit Tree → Event Commit) : CommandAction Commit Tree Unit :=
  fun state => (.ok (), { state with events := state.events ++ [event state.repo] })

def gitStatus : CommandAction Commit Tree (List Char) :=
  ask fun repo => runCommandStdout "git" (gitArgsExcludingLocalArtifacts ["status", "--short"])
    (tools.status repo)

def gitDiff (defaultBranch : List Char) : CommandAction Commit Tree (List Char) :=
  ask fun repo => runCommandStdout "git"
    ["diff".toList, "--stat".toList, defaultBranch ++ "...HEAD".toList]
    (tools.diffStat repo (defaultBranch ++ "...HEAD".toList))

/-- A change of the index. -/
def gitIndex (args : List String) (change : Repository Commit Tree → Output × Tree) :
    CommandAction Commit Tree Unit := fun state =>
  (runCommandSuccess "git" (args.map String.toList) (change state.repo).1,
    { state with repo := { state.repo with index := (change state.repo).2 } })

def gitCommit (message path : List Char) : CommandAction Commit Tree Unit := do
  record fun repo => .commit repo.head
  fun state =>
    match tools.commit state.repo message with
    | .ok commit => (.ok (), { state with repo := state.repo.advance commit })
    | .error output =>
        (.error (.other (commandFailure "git" ["commit".toList, "--file".toList, path] output)), state)

def gitPush (branch : List Char) : CommandAction Commit Tree Unit := do
  record fun repo => .push repo.head branch
  ask fun repo => runCommandSuccess "git"
    ["push".toList, "--set-upstream".toList, "origin".toList, branch] (tools.push repo branch)

def gitSwitch (name : List Char) : CommandAction Commit Tree Unit := fun state =>
  if creatable : state.repo.Creatable (encode name) then
    (.ok (), { state with repo := state.repo.switchTo ⟨encode name, creatable.1⟩ })
  else
    (.error (.other (commandFailure "git" ["switch".toList, "-c".toList, name]
      ⟨false, [], tools.refusal state.repo name⟩)), state)

def handleCommitSlashCommand (message : List Char) : CommandAction Commit Tree CommitReport := do
  let status ← gitStatus tools
  if trim status = [] then return .skipped
  else if trim message = [] then
    Action.fail (.other "generated commit message was empty".toList)
  else
    gitIndex ["add", "-A", "--", "."] tools.add
    gitIndex ["reset", "--quiet", "--", ".openyak/settings.local.json", ".openyak/sessions"]
      tools.reset
    let path ← Action.orFail (tools.writeMessage (trim message)) .io
    gitCommit tools (trim message) path
    return .created path (trim message)

def ensureCommitPushPrBranch (owner : Owner) (request : CommitPushPrRequest)
    (defaultBranch currentBranch : List Char) : CommandAction Commit Tree (List Char × Bool) :=
  if currentBranch ≠ defaultBranch then pure (currentBranch, false)
  else do
    gitSwitch tools (nextBranch owner request)
    return (nextBranch owner request, true)

def createPr (request : CommitPushPrRequest) (defaultBranch branch : List Char)
    (createdBranch : Bool) (commitReport : Option CommitReport) :
    CommandAction Commit Tree Report := do
  let bodyFile ← Action.orFail (tools.writeBody (trim request.prBody)) .io
  record fun _ => .create defaultBranch
  let create := tools.prCreate request.prTitle bodyFile defaultBranch
  if create.success then
    return .finished "created" branch defaultBranch bodyFile createdBranch
      (parsePrUrl (fromUtf8Lossy create.stdout)) commitReport
  else if tools.prView.success then
    return .finished "existing" branch defaultBranch bodyFile createdBranch
      (tools.jsonUrl (fromUtf8Lossy tools.prView.stdout)) commitReport
  else
    Action.fail (.other (commandFailure "gh" ["pr".toList, "create".toList] create))

def commitChanges (request : CommitPushPrRequest) (workspaceHasChanges : Bool) :
    CommandAction Commit Tree (Option CommitReport) :=
  if workspaceHasChanges then
    match request.commitMessage with
    | some message => do
        let report ← handleCommitSlashCommand tools message
        return some report
    | none =>
        Action.fail (.other "commit message is required when workspace changes are present".toList)
  else pure none

/-- From the branch that is worked on to the pull request. -/
def commitAndPush (request : CommitPushPrRequest) (workspaceHasChanges : Bool)
    (defaultBranch branch : List Char) (createdBranch : Bool) :
    CommandAction Commit Tree Report := do
  let commitReport ← commitChanges tools request workspaceHasChanges
  let branchDiff ← gitDiff tools defaultBranch
  if trim branchDiff = [] then return .skipped
  else
    gitPush tools branch
    createPr tools request defaultBranch branch createdBranch commitReport

/-- Nothing to commit, and no commit on the branch. -/
def shouldSkipCommitPushPr (defaultBranch : List Char) (workspaceHasChanges : Bool) :
    CommandAction Commit Tree Bool :=
  if workspaceHasChanges then pure false
  else do
    let diff ← gitDiff tools defaultBranch
    return trim diff = []

def handleCommitPushPrSlashCommand (owner : Owner) (request : CommitPushPrRequest) :
    CommandAction Commit Tree Report :=
  if tools.ghCommand = none then
    Action.fail (.other "gh CLI is required for /commit-push-pr".toList)
  else do
    let defaultBranch ← ask detectDefaultBranch
    let status ← gitStatus tools
    let workspaceHasChanges : Bool := trim status ≠ []
    if ← shouldSkipCommitPushPr tools defaultBranch workspaceHasChanges then return .skipped
    else
      let current ← ask currentBranch
      let (branch, createdBranch) ← ensureCommitPushPrBranch tools owner request defaultBranch current
      commitAndPush tools request workspaceHasChanges defaultBranch branch createdBranch

end Command

end Openyak.Commands
