/-
# Commands.DefaultBranch -- what `/commit-push-pr` does to the default branch

The default branch is read off the last part of `refs/remotes/origin/<name>`, and compared
with the checked-out branch as a text without white space around it.  So a name that has a
slash in it, ends with white space or is no UTF-8 is taken for another one, and one that
begins with white space is not recognised where it is checked out (`detect_inj`).

With any other name the branch is kept out of, but for one state: it has no commit here, and
the branch that is made has its name (`spares_iff`).
-/
import Openyak.Commands.CommitPushPr
import Openyak.Theory.Scanning
import Openyak.Theory.Utf8Text

namespace Openyak.Commands

open Openyak.Theory
open Openyak.Theory.Text (trim trimStart trimEnd trimEnd_append_cons trimEnd_append_white
  trimEnd_trimEnd trimEnd_isPrefix isWhitespace)
open Openyak.Theory.Utf8Stream (encode)
open Openyak.Runtime (fromUtf8 fromUtf8_iff)

set_option autoImplicit false

variable {Commit Tree : Type} {repo : Repository Commit Tree} {name : BranchName}
  {text current branch : List Char}

/-! ## Texts -/

theorem trim_line (text : List Char) : trim (text ++ ['\n']) = trim text := by
  unfold trim trimStart
  rw [List.dropWhile_append]
  split
  · rename_i nothing
    rw [List.isEmpty_iff.1 nothing]
    rfl
  · exact trimEnd_append_white (by decide) _

theorem trimStart_of_trim (whole : trim text = text) : trimStart text = text := by
  have shorter := (trimEnd_isPrefix (trimStart text)).length_le
  rw [← trim, whole] at shorter
  have isSuffix : trimStart text <:+ text := List.dropWhile_suffix _
  exact isSuffix.eq_of_length_le shorter

theorem lastPart_noSlash (text : List Char) : '/' ∉ lastPart text := by
  intro member
  have stays := List.mem_takeWhile_imp (List.mem_reverse.1 member)
  simp at stays

theorem lastPart_append (front text : List Char) :
    lastPart (front ++ '/' :: text) = lastPart text := by
  rw [lastPart, List.reverse_append, List.reverse_cons, List.append_assoc, lastPart]
  refine congrArg List.reverse ?_
  rw [List.takeWhile_append]
  split
  · rename_i whole
    have all := (List.takeWhile_prefix _).eq_of_length whole
    rw [all]
    simp
  · rfl

theorem lastPart_isSuffix (text : List Char) : lastPart text <:+ text := by
  rw [lastPart, ← List.reverse_prefix, List.reverse_reverse]
  exact List.takeWhile_prefix _

theorem lastPart_of_noSlash (noSlash : '/' ∉ text) : lastPart text = text := by
  rw [lastPart, List.takeWhile_eq_self_iff.2, List.reverse_reverse]
  intro c member
  rw [List.mem_reverse] at member
  simpa using fun isSlash : c = '/' => noSlash (isSlash ▸ member)

/-- Only what ends with a slash has nothing behind the last one. -/
theorem lastPart_eq_nil (nothing : lastPart text = []) (some_ : text ≠ []) :
    ∃ front, text = front ++ ['/'] := by
  obtain ⟨front, last, rfl⟩ : ∃ front last, text = front ++ [last] :=
    ⟨_, _, (List.dropLast_append_getLast some_).symm⟩
  refine ⟨front, ?_⟩
  rw [lastPart, List.reverse_append, List.reverse_singleton, List.singleton_append,
    List.reverse_eq_nil_iff, List.takeWhile_cons] at nothing
  by_cases isSlash : last = '/'
  · rw [isSlash]
  · simp [isSlash] at nothing

/-! ## The branches that are read -/

theorem runCommandStdout_text {program : String} {args : List (List Char)} {output : Output}
    (success : output.success = true) (isText : output.stdout = encode text) :
    runCommandStdout program args output = .ok text := by
  rw [runCommandStdout, if_pos success, fromUtf8_iff.2 isText]

theorem runCommandStdout_ok {program : String} {args : List (List Char)} {output : Output}
    (read : runCommandStdout program args output = .ok text) :
    output.success = true ∧ output.stdout = encode text := by
  unfold runCommandStdout at read
  split at read
  · rename_i success
    split at read
    · rename_i isText
      cases read
      exact ⟨success, fromUtf8_iff.1 isText⟩
    · cases read
  · cases read

/-- A line that is a text, is one before its end. -/
theorem line_isText {bytes : List UInt8} (isText : bytes ++ bytesOf "\n" = encode text) :
    ∃ line, bytes = encode line ∧ text = line ++ ['\n'] :=
  @encode_before 10 (by decide) text bytes isText

theorem currentBranch_iff : currentBranch repo = .ok current ↔
    ∃ name text, repo.head = .branch name ∧ name.1 = encode text ∧ current = trim text ∧
      current ≠ [] := by
  unfold currentBranch showCurrent
  constructor
  · intro found
    obtain ⟨line, read, found⟩ := bind_eq_ok.1 found
    obtain ⟨-, isText⟩ := runCommandStdout_ok read
    cases onBranch : repo.head with
    | detached commit =>
        rw [onBranch] at isText
        have nothing : line = [] := encode_inj isText.symm
        rw [nothing] at found
        cases found
    | branch name =>
        rw [onBranch] at isText
        obtain ⟨text, isName, rfl⟩ := line_isText isText
        rw [trim_line] at found
        split at found
        · cases found
        · rename_i some_
          cases found
          exact ⟨name, text, rfl, isName, rfl, some_⟩
  · rintro ⟨name, text, onBranch, isName, rfl, some_⟩
    rw [onBranch]
    dsimp only
    have isText : name.1 ++ bytesOf "\n" = encode (text ++ ['\n']) := by
      rw [isName, encode_append]
      rfl
    rw [runCommandStdout_text rfl isText, ok_bind, trim_line, if_neg some_]

/-- What the default branch is taken for. -/
theorem detect_cases (isDefault : repo.originHead = some name) :
    (∃ text, name.1 = encode text ∧ lastPart (trimEnd text) ≠ [] ∧
      detectDefaultBranch repo = .ok (lastPart (trimEnd text))) ∨
    (∀ text, name.1 = encode text → lastPart (trimEnd text) = []) ∧
      detectDefaultBranch repo = fallbackBranch repo := by
  have trimmed : ∀ text, trim ("refs/remotes/origin".toList ++ '/' :: text ++ ['\n']) =
      "refs/remotes/origin".toList ++ '/' :: trimEnd text := by
    intro text
    rw [trim_line]
    have starts : trimStart ("refs/remotes/origin".toList ++ '/' :: text) =
        "refs/remotes/origin".toList ++ '/' :: text :=
      List.dropWhile_cons_of_neg (by decide)
    rw [trim, starts]
    exact @trimEnd_append_cons '/' (by decide) _ _
  by_cases isText : ∃ text, name.1 = encode text
  · obtain ⟨text, isName⟩ := isText
    have reference : runCommandStdout "git" ["symbolic-ref".toList, "refs/remotes/origin/HEAD".toList]
        (symbolicRef repo) = .ok ("refs/remotes/origin".toList ++ '/' :: text ++ ['\n']) := by
      apply runCommandStdout_text
      · rw [symbolicRef, isDefault]
      · rw [symbolicRef, isDefault]
        dsimp only
        rw [isName, bytesOf, bytesOf, ← encode_append, ← encode_append]
        rfl
    unfold detectDefaultBranch
    rw [reference]
    dsimp only
    rw [trimmed, lastPart_append]
    by_cases nothing : lastPart (trimEnd text) = []
    · refine .inr ⟨fun other isName' => ?_, ?_⟩
      · rw [← encode_inj (isName.symm.trans isName')]
        exact nothing
      · rw [if_neg (not_not.2 nothing)]
    · exact .inl ⟨text, isName, nothing, if_pos nothing⟩
  · refine .inr ⟨fun text isName => absurd ⟨text, isName⟩ isText, ?_⟩
    unfold detectDefaultBranch
    split
    · rename_i reference read
      obtain ⟨-, whole⟩ := runCommandStdout_ok read
      rw [symbolicRef, isDefault] at whole
      obtain ⟨line, isLine, -⟩ := line_isText whole
      obtain ⟨behind, isName, -⟩ := encode_behind isLine
      exact absurd ⟨behind, isName⟩ isText
    · rfl

/-- A name that is read as it is. -/
def ReadsAs (name : BranchName) (text : List Char) : Prop :=
  name.1 = encode text ∧ '/' ∉ text ∧ trimEnd text = text

instance : Decidable (ReadsAs name text) := inferInstanceAs (Decidable (_ ∧ _ ∧ _))

theorem name_some (isName : name.1 = encode text) : text ≠ [] := by
  rintro rfl
  exact name.2.1 isName

theorem name_noSlash (isName : name.1 = encode text) : ¬∃ front, text = front ++ ['/'] := by
  rintro ⟨front, rfl⟩
  refine name.2.2.2.2.1 "/" (by simp) ?_
  rw [isName, encode_append]
  exact List.suffix_append _ _

theorem fallback_trimmed (found : fallbackBranch repo = .ok branch) : trimEnd branch = branch := by
  unfold fallbackBranch at found
  split at found
  · cases found
    decide
  · split at found
    · cases found
      decide
    · obtain ⟨name, text, -, -, rfl, -⟩ := currentBranch_iff.1 found
      exact trimEnd_trimEnd _

/-- **The default branch is taken for itself** exactly where its name is read as it is. -/
theorem detect_inj (isDefault : repo.originHead = some name)
    (found : detectDefaultBranch repo = .ok branch) : name.1 = encode branch ↔ ReadsAs name branch := by
  refine ⟨fun isName => ⟨isName, ?_⟩, fun readsAs => readsAs.1⟩
  obtain ⟨text, isName', -, isLast⟩ | ⟨nothing, isFallback⟩ := detect_cases isDefault
  · have same : branch = text := encode_inj (isName.symm.trans isName')
    subst same
    rw [found] at isLast
    have isLast := Except.ok.inj isLast
    refine ⟨isLast ▸ lastPart_noSlash _, ?_⟩
    have shorter := (lastPart_isSuffix (trimEnd branch)).length_le
    rw [← isLast] at shorter
    exact (trimEnd_isPrefix branch).eq_of_length_le shorter
  · rw [isFallback] at found
    have stays := fallback_trimmed found
    have none_ := nothing branch isName
    rw [stays] at none_
    exact absurd (lastPart_eq_nil none_ (name_some isName)) (name_noSlash isName)

theorem detect_of_readsAs (isDefault : repo.originHead = some name) (readsAs : ReadsAs name text)
    (found : detectDefaultBranch repo = .ok branch) : branch = text := by
  obtain ⟨isName, noSlash, stays⟩ := readsAs
  obtain ⟨other, isName', -, isLast⟩ | ⟨nothing, -⟩ := detect_cases isDefault
  · rw [found, ← encode_inj (isName.symm.trans isName'), stays, lastPart_of_noSlash noSlash] at isLast
    exact Except.ok.inj isLast
  · have none_ := nothing text isName
    rw [stays, lastPart_of_noSlash noSlash] at none_
    exact absurd none_ (name_some isName)

/-! ## What is run -/

/-- Not on this branch, and a pull request against it only. -/
def Event.Spares (name : BranchName) : Event Commit → Prop
  | .commit head | .push head _ => head ≠ .branch name
  | .create base => encode base = name.1

/-- On `on`, and against `base`. -/
def Event.Among (on : BranchName) (base : List Char) : Event Commit → Prop
  | .commit head | .push head _ => head = .branch on
  | .create against => against = base

/-- HEAD names `on`, and everything is run there. -/
def Stays (on : BranchName) (base : List Char) (state : State Commit Tree) : Prop :=
  state.repo.head = .branch on ∧ ∀ event ∈ state.events, event.Among on base

variable {tools : Tools Commit Tree} {on : BranchName} {base : List Char}
  {request : CommitPushPrRequest} {owner : Owner}

theorem Stays.ask {α : Type} (question : Repository Commit Tree → Except IoError α) :
    Action.Keeps (Stays on base) (ask question) := fun _ stays => stays

theorem Stays.record {event : Repository Commit Tree → Event Commit}
    (among : ∀ repo, repo.head = .branch on → (event repo).Among on base) :
    Action.Keeps (Stays on base) (record event) := by
  rintro state ⟨isHead, all⟩
  exact ⟨isHead, List.forall_mem_append.2 ⟨all, by simpa using among state.repo isHead⟩⟩

theorem Stays.gitIndex (args : List String)
    (change : Repository Commit Tree → Output × Tree) :
    Action.Keeps (Stays on base) (gitIndex args change) := fun _ stays => stays

theorem advance_head (commit : Commit) (isHead : repo.head = .branch on) :
    (repo.advance commit).head = .branch on := by
  rw [Repository.advance, isHead]

theorem Stays.gitCommit (message path : List Char) :
    Action.Keeps (Stays on base) (gitCommit tools message path) := by
  refine .bind (Stays.record fun repo isHead => isHead) fun _ => ?_
  rintro state ⟨isHead, all⟩
  dsimp only
  split
  · exact ⟨advance_head _ isHead, all⟩
  · exact ⟨isHead, all⟩

theorem Stays.handleCommit (message : List Char) :
    Action.Keeps (Stays on base) (handleCommitSlashCommand tools message) := by
  refine .bind (Stays.ask _) fun status => ?_
  split
  · exact .pure _
  · split
    · exact .fail _
    · refine .bind (Stays.gitIndex _ _) fun _ => .bind (Stays.gitIndex _ _) fun _ => ?_
      exact .bind (.orFail _ _) fun path => .bind (Stays.gitCommit _ _) fun _ => .pure _

theorem Stays.commitChanges (hasChanges : Bool) :
    Action.Keeps (Stays on base) (commitChanges tools request hasChanges) := by
  unfold Commands.commitChanges
  split
  · split
    · exact .bind (Stays.handleCommit _) fun _ => .pure _
    · exact .fail _
  · exact .pure _

theorem Stays.createPr (branch : List Char) (created : Bool) (report : Option CommitReport) :
    Action.Keeps (Stays on base) (createPr tools request base branch created report) := by
  refine .bind (.orFail _ _) fun bodyFile => .bind (Stays.record fun repo _ => rfl) fun _ => ?_
  dsimp only
  split
  · exact .pure _
  · split
    · exact .pure _
    · exact .fail _

/-- **The command stays on the branch it has settled on.** -/
theorem Stays.commitAndPush (hasChanges : Bool) (branch : List Char) (created : Bool) :
    Action.Keeps (Stays on base) (commitAndPush tools request hasChanges base branch created) := by
  refine .bind (Stays.commitChanges _) fun report => .bind (Stays.ask _) fun diff => ?_
  split
  · exact .pure _
  · refine .bind ?_ fun _ => Stays.createPr _ _ _
    exact .bind (Stays.record fun repo isHead => isHead) fun _ => Stays.ask _

/-! ## Where HEAD has no commit -/

/-- A message that can be committed with. -/
def HasMessage (request : CommitPushPrRequest) : Prop :=
  ∃ message, request.commitMessage = some message ∧ trim message ≠ []

/-- HEAD has no commit, and nothing has been run. -/
def Quiet (state : State Commit Tree) : Prop := state.repo.tip = none ∧ state.events = []

theorem Quiet.ask {α : Type} (question : Repository Commit Tree → Except IoError α) :
    Action.Keeps Quiet (ask question) := fun _ quiet => quiet

theorem Quiet.gitDiff (base : List Char) : Action.Ensures Quiet (gitDiff tools base)
    fun result state => Quiet state ∧ ∃ error, result = .error error := by
  rintro state ⟨noTip, none_⟩
  refine ⟨⟨noTip, none_⟩, ?_⟩
  show ∃ error, runCommandStdout _ _ _ = .error error
  rw [runCommandStdout, tools.unborn state.repo _ noTip]
  exact ⟨_, rfl⟩

theorem switchTo_tip (fresh : ∀ entry ∈ repo.heads, entry.1 ≠ on) :
    (repo.switchTo on).tip = repo.tip := by
  have absent : repo.heads.lookup on = none := by
    rw [List.lookup_eq_none_iff]
    intro entry isEntry
    simpa using (fresh entry isEntry).symm
  show ((repo.tip.map fun commit => (on, commit)).toList ++ repo.heads).lookup on = repo.tip
  cases repo.tip with
  | none => exact absent
  | some commit => simp

theorem Quiet.gitSwitch (name : List Char) : Action.Keeps Quiet (gitSwitch tools name) := by
  rintro state ⟨noTip, none_⟩
  unfold Commands.gitSwitch
  split
  · rename_i creatable
    refine ⟨?_, none_⟩
    show (state.repo.switchTo _).tip = none
    rw [switchTo_tip, noTip]
    intro entry isEntry same
    exact (creatable.2.2.2 entry isEntry).1 (congrArg Subtype.val same)
  · exact ⟨noTip, none_⟩

theorem Quiet.commitChanges (noMessage : ¬HasMessage request) (hasChanges : Bool) :
    Action.Keeps Quiet (commitChanges tools request hasChanges) := by
  unfold Commands.commitChanges
  split
  · split
    · rename_i message given
      have blank : trim message = [] := by
        by_contra some_
        exact noMessage ⟨message, given, some_⟩
      refine .bind (.bind (Quiet.ask _) fun status => ?_) fun _ => .pure _
      split
      · exact .pure _
      · exact .fail _
    · exact .fail _
  · exact .pure _

/-- **Without a commit on HEAD and a message for one nothing is run.** -/
theorem quiet_handle (noMessage : ¬HasMessage request) :
    Action.Keeps Quiet (handleCommitPushPrSlashCommand tools owner request) := by
  have refused : ∀ {α : Type} (base : List Char) (next : List Char → CommandAction Commit Tree α),
      Action.Keeps Quiet (gitDiff tools base >>= next) := by
    intro α base next
    refine Action.Ensures.bind (Quiet.gitDiff base) ?_ fun error state quiet => quiet.1
    rintro diff state ⟨-, error, isError⟩
    cases isError
  unfold handleCommitPushPrSlashCommand
  split
  · exact .fail _
  · refine .bind (Quiet.ask _) fun base => .bind (Quiet.ask _) fun status => ?_
    dsimp only
    refine .bind ?_ fun skips => ?_
    · unfold shouldSkipCommitPushPr
      split
      · exact .pure _
      · exact refused _ _
    · split
      · exact .pure _
      · refine .bind (Quiet.ask _) fun current => .bind ?_ fun settled => ?_
        · unfold ensureCommitPushPrBranch
          split
          · exact .pure _
          · exact .bind (Quiet.gitSwitch _) fun _ => .pure _
        · exact .bind (Quiet.commitChanges noMessage _) fun _ => refused _ _

/-! ## The branch that is settled on -/

/-- The checked-out branch, or a new one where that is the default branch. -/
def Settles (repo : Repository Commit Tree) (owner : Owner) (request : CommitPushPrRequest)
    (base : List Char) (on : BranchName) : Prop :=
  ∃ current, currentBranch repo = .ok current ∧
    (current ≠ base ∧ repo.head = .branch on ∨
      current = base ∧ repo.Creatable on.1 ∧ on.1 = encode (nextBranch owner request))

/-- Nothing has been changed or run. -/
def Untouched (repo : Repository Commit Tree) (state : State Commit Tree) : Prop := state = ⟨repo, []⟩

/-- What has been run was run on the branch that is settled on. -/
def OnSettled (repo : Repository Commit Tree) (owner : Owner) (request : CommitPushPrRequest)
    (state : State Commit Tree) : Prop :=
  ∀ event ∈ state.events, ∃ base on, detectDefaultBranch repo = .ok base ∧
    Settles repo owner request base on ∧ event.Among on base

theorem onSettled_of_untouched {state : State Commit Tree} (untouched : Untouched repo state) :
    OnSettled repo owner request state := by
  rw [untouched]
  exact nofun

theorem gitSwitch_done {name : List Char} (creatable : repo.Creatable (encode name)) :
    gitSwitch tools name ⟨repo, []⟩ = (.ok (), ⟨repo.switchTo ⟨encode name, creatable.1⟩, []⟩) :=
  dif_pos creatable

/-- After a question the command goes on from where it was, with the answer. -/
theorem ensures_asked {α β : Type} {question : Repository Commit Tree → Except IoError α}
    {next : α → CommandAction Commit Tree β}
    (rest : ∀ value, question repo = .ok value →
      Action.Ensures (Untouched repo) (next value) fun _ => OnSettled repo owner request) :
    Action.Ensures (Untouched repo) (ask question >>= next)
      fun _ => OnSettled repo owner request := by
  rintro state rfl
  cases answer : question repo with
  | error error =>
      have stopped : ask question ⟨repo, []⟩ = (.error error, ⟨repo, []⟩) := Prod.ext answer rfl
      rw [Action.bind_error stopped]
      exact onSettled_of_untouched rfl
  | ok value =>
      have asked : ask question ⟨repo, []⟩ = (.ok value, ⟨repo, []⟩) := Prod.ext answer rfl
      rw [Action.bind_ok asked]
      exact rest value answer _ rfl

theorem commitAndPush_settled {start : Repository Commit Tree} {base branch : List Char}
    {hasChanges created : Bool} (found : detectDefaultBranch repo = .ok base)
    (settles : Settles repo owner request base on) (isHead : start.head = .branch on) :
    OnSettled repo owner request
      (commitAndPush tools request hasChanges base branch created ⟨start, []⟩).2 := by
  intro event isRun
  have stays : Stays on base
      (commitAndPush tools request hasChanges base branch created ⟨start, []⟩).2 :=
    Stays.commitAndPush _ _ _ _ ⟨isHead, nofun⟩
  exact ⟨base, on, found, settles, stays.2 event isRun⟩

/-- **What is run is run on the branch that is settled on.** -/
theorem handle_events : Action.Ensures (Untouched repo)
    (handleCommitPushPrSlashCommand tools owner request) fun _ => OnSettled repo owner request := by
  unfold handleCommitPushPrSlashCommand
  split
  · exact fun state untouched => onSettled_of_untouched untouched
  · refine ensures_asked fun base found => ensures_asked fun status _ => ?_
    have skipping : Action.Keeps (Untouched repo)
        (shouldSkipCommitPushPr tools base (decide (trim status ≠ []))) := by
      unfold shouldSkipCommitPushPr
      split
      · exact .pure _
      · exact .bind (fun _ untouched => untouched) fun _ => .pure _
    refine Action.Ensures.bind skipping (fun skips => ?_) fun _ _ => onSettled_of_untouched
    split
    · exact fun state untouched => onSettled_of_untouched untouched
    · refine ensures_asked fun current isCurrent => ?_
      rintro state rfl
      unfold ensureCommitPushPrBranch
      by_cases same : current = base
      · rw [if_neg (not_not.2 same)]
        by_cases creatable : repo.Creatable (encode (nextBranch owner request))
        · have settled : (gitSwitch tools (nextBranch owner request) >>= fun _ =>
              pure (nextBranch owner request, true)) ⟨repo, []⟩ =
              (.ok (nextBranch owner request, true), ⟨repo.switchTo ⟨_, creatable.1⟩, []⟩) :=
            (Action.bind_ok (gitSwitch_done creatable)).trans rfl
          rw [Action.bind_ok settled]
          exact commitAndPush_settled found ⟨current, isCurrent, .inr ⟨same, creatable, rfl⟩⟩ rfl
        · obtain ⟨error, refused⟩ : ∃ error, gitSwitch tools (nextBranch owner request) ⟨repo, []⟩ =
              (.error error, ⟨repo, []⟩) := ⟨_, dif_neg creatable⟩
          have stopped : (gitSwitch tools (nextBranch owner request) >>= fun _ =>
              pure (nextBranch owner request, true)) ⟨repo, []⟩ = (.error error, ⟨repo, []⟩) :=
            Action.bind_error refused
          rw [Action.bind_error stopped]
          exact onSettled_of_untouched rfl
      · rw [if_pos same]
        obtain ⟨on, text, isHead, -⟩ := currentBranch_iff.1 isCurrent
        exact commitAndPush_settled found ⟨current, isCurrent, .inl ⟨same, isHead⟩⟩ isHead

/-! ## Where everything succeeds -/

/-- Programs that all succeed, where there are changes or there are none. -/
def willing [Inhabited Commit] (changed : Bool) : Tools Commit Tree where
  ghCommand := some "gh".toList
  status _ := ⟨true, if changed then bytesOf "?? a" else [], []⟩
  diffStat repo _ := ⟨repo.tip.isSome, bytesOf "a", []⟩
  add repo := (⟨true, [], []⟩, repo.index)
  reset repo := (⟨true, [], []⟩, repo.index)
  commit _ _ := .ok default
  push _ _ := ⟨true, [], []⟩
  refusal _ _ := []
  writeMessage _ := some []
  writeBody _ := some []
  prCreate _ _ _ := ⟨true, [], []⟩
  prView := ⟨true, [], []⟩
  jsonUrl _ := none
  unborn repo _ noTip := by rw [noTip]; rfl

variable [Inhabited Commit]

theorem willing_status (changed : Bool) (state : State Commit Tree) :
    gitStatus (willing changed) state = (.ok (if changed then "?? a".toList else []), state) := by
  have isText : (if changed then bytesOf "?? a" else []) =
      encode (if changed then "?? a".toList else []) := by
    cases changed <;> rfl
  refine Prod.ext ?_ rfl
  show runCommandStdout "git" (gitArgsExcludingLocalArtifacts ["status", "--short"])
    ((willing changed : Tools Commit Tree).status state.repo) = _
  exact runCommandStdout_text rfl isText

theorem willing_diff (changed : Bool) (base : List Char) {state : State Commit Tree}
    (born : state.repo.tip ≠ none) :
    gitDiff (willing changed) base state = (.ok "a".toList, state) := by
  refine Prod.ext ?_ rfl
  exact runCommandStdout_text (Option.isSome_iff_ne_none.2 born) rfl

/-- There are changes exactly where a message for them is needed. -/
theorem willing_commit {changed : Bool} {state : State Commit Tree}
    (message : changed = true → HasMessage request)
    (born : changed = false → state.repo.tip ≠ none) (isHead : state.repo.head = .branch on) :
    ∃ report after, commitChanges (willing changed) request changed state = (.ok report, after) ∧
      after.repo.tip ≠ none ∧ after.repo.head = .branch on := by
  cases changed with
  | false => exact ⟨none, state, rfl, born rfl, isHead⟩
  | true =>
      obtain ⟨message, given, some_⟩ := message rfl
      have committed : handleCommitSlashCommand (willing true) message state =
          (.ok (.created [] (trim message)),
            { repo := state.repo.advance default
              events := state.events ++ [.commit state.repo.head] }) := by
        unfold handleCommitSlashCommand
        rw [Action.bind_ok (willing_status true state), if_neg (by decide), if_neg some_]
        rfl
      refine ⟨some (.created [] (trim message)),
        { repo := state.repo.advance default
          events := state.events ++ [.commit state.repo.head] }, ?_, ?_,
        advance_head default isHead⟩
      · unfold commitChanges
        rw [if_pos rfl, given]
        exact Action.bind_ok committed
      · show (state.repo.advance default).tip ≠ none
        rw [Repository.tip, advance_head default isHead, Repository.advance, isHead]
        simp

/-- **Where everything succeeds, the branch is pushed and a pull request is opened.** -/
theorem willing_events {changed created : Bool} {state : State Commit Tree} {base branch : List Char}
    (message : changed = true → HasMessage request)
    (born : changed = false → state.repo.tip ≠ none) (isHead : state.repo.head = .branch on) :
    .push (.branch on) branch ∈
        (commitAndPush (willing changed) request changed base branch created state).2.events ∧
      .create base ∈
        (commitAndPush (willing changed) request changed base branch created state).2.events := by
  obtain ⟨report, after, committed, hasTip, isHead'⟩ := willing_commit message born isHead
  have ended : (commitAndPush (willing changed) request changed base branch created state).2.events =
      after.events ++ [.push after.repo.head branch] ++ [.create base] := by
    unfold commitAndPush
    rw [Action.bind_ok committed, Action.bind_ok (willing_diff changed base hasTip),
      if_neg (by decide)]
    rfl
  rw [ended, isHead']
  simp

theorem handle_willing {base : List Char} (found : detectDefaultBranch repo = .ok base)
    (settles : Settles repo owner request base on) (canCommit : repo.tip ≠ none ∨ HasMessage request) :
    ∃ (tools : Tools Commit Tree) (branch : List Char),
      .push (.branch on) branch ∈
          (handleCommitPushPrSlashCommand tools owner request ⟨repo, []⟩).2.events ∧
        .create base ∈
          (handleCommitPushPrSlashCommand tools owner request ⟨repo, []⟩).2.events := by
  obtain ⟨changed, message, born⟩ : ∃ changed : Bool, (changed = true → HasMessage request) ∧
      (changed = false → repo.tip ≠ none) := by
    rcases canCommit with born | message
    · exact ⟨false, nofun, fun _ => born⟩
    · exact ⟨true, fun _ => message, nofun⟩
  have isChanged : decide (trim (if changed then "?? a".toList else []) ≠ []) = changed := by
    cases changed <;> decide
  have skips : shouldSkipCommitPushPr (willing changed) base changed ⟨repo, []⟩ =
      (.ok false, ⟨repo, []⟩) := by
    unfold shouldSkipCommitPushPr
    cases changed with
    | true => rfl
    | false =>
        rw [if_neg (by decide), Action.bind_ok (willing_diff false base (born rfl))]
        rfl
  obtain ⟨current, isCurrent, settled⟩ := settles
  obtain ⟨start, branch, created, ensured, isHead, born'⟩ : ∃ start branch created,
      ensureCommitPushPrBranch (willing changed) owner request base current ⟨repo, []⟩ =
        (.ok (branch, created), ⟨start, []⟩) ∧ start.head = .branch on ∧
      (changed = false → start.tip ≠ none) := by
    unfold ensureCommitPushPrBranch
    rcases settled with ⟨other, isHead⟩ | ⟨same, creatable, isNext⟩
    · rw [if_pos other]
      exact ⟨repo, current, false, rfl, isHead, born⟩
    · rw [if_neg (not_not.2 same)]
      rw [isNext] at creatable
      have isOn : on = ⟨encode (nextBranch owner request), creatable.1⟩ := Subtype.ext isNext
      refine ⟨repo.switchTo on, nextBranch owner request, true, ?_, rfl, fun clean => ?_⟩
      · rw [isOn]
        exact (Action.bind_ok (gitSwitch_done creatable)).trans rfl
      · rw [switchTo_tip]
        · exact born clean
        · intro entry isEntry isSame
          apply (creatable.2.2.2 entry isEntry).1
          rw [isSame, isNext]
  refine ⟨willing changed, branch, ?_⟩
  have asked : ask detectDefaultBranch ⟨repo, []⟩ = (.ok base, (⟨repo, []⟩ : State Commit Tree)) :=
    Prod.ext found rfl
  have asked' : ask currentBranch ⟨repo, []⟩ = (.ok current, (⟨repo, []⟩ : State Commit Tree)) :=
    Prod.ext isCurrent rfl
  have ended : handleCommitPushPrSlashCommand (willing changed) owner request ⟨repo, []⟩ =
      commitAndPush (willing changed) request changed base branch created ⟨start, []⟩ := by
    unfold handleCommitPushPrSlashCommand
    rw [if_neg nofun, Action.bind_ok asked, Action.bind_ok (willing_status changed _)]
    dsimp only
    rw [isChanged, Action.bind_ok skips, if_neg (by decide), Action.bind_ok asked',
      Action.bind_ok ensured]
  rw [ended]
  exact willing_events message born' isHead

/-! ## The default branch -/

/-- Whatever the programs do, neither `git commit` nor `git push` is run on the branch, and
a pull request is opened against no other. -/
def Spared (repo : Repository Commit Tree) (owner : Owner) (request : CommitPushPrRequest)
    (name : BranchName) : Prop :=
  ∀ tools : Tools Commit Tree,
    ∀ event ∈ (handleCommitPushPrSlashCommand tools owner request ⟨repo, []⟩).2.events,
      event.Spares name

/-- A branch can be worked on: HEAD names one that is a text, a new one that is needed can be
made, and there is a commit or a message for one. -/
def Workable (repo : Repository Commit Tree) (owner : Owner) (request : CommitPushPrRequest) : Prop :=
  (∃ base on, detectDefaultBranch repo = .ok base ∧ Settles repo owner request base on) ∧
    (repo.tip ≠ none ∨ HasMessage request)

/-- The name is read as it is, it is recognised where it is checked out, and no branch of the
same name is made. -/
def ToldApart (repo : Repository Commit Tree) (owner : Owner) (request : CommitPushPrRequest)
    (name : BranchName) : Prop :=
  ∃ text, ReadsAs name text ∧ (repo.head = .branch name → trimStart text = text) ∧
    (currentBranch repo = .ok text → nextBranch owner request ≠ text)

/-- **The default branch is left alone exactly if no branch can be worked on or its name is
told apart.** -/
theorem spared_iff (isDefault : repo.originHead = some name) :
    Spared repo owner request name ↔
      (Workable repo owner request → ToldApart repo owner request name) := by
  constructor
  · rintro spared ⟨⟨base, on, found, settles⟩, canCommit⟩
    obtain ⟨tools, branch, pushed, opened⟩ := handle_willing found settles canCommit
    have elsewhere : on ≠ name := fun same => spared tools _ pushed (same ▸ rfl)
    have readsAs := (detect_inj isDefault found).1 (spared tools _ opened).symm
    refine ⟨base, readsAs, fun isHead => ?_, fun isCurrent isNext => ?_⟩
    · obtain ⟨current, isCurrent, ⟨other, isHead'⟩ | ⟨same, -, -⟩⟩ := settles
      · rw [isHead] at isHead'
        exact absurd (Head.branch.inj isHead').symm elsewhere
      · obtain ⟨name', text, isHead', isName, isTrim, -⟩ := currentBranch_iff.1 isCurrent
        obtain rfl := Head.branch.inj (isHead.symm.trans isHead')
        obtain rfl := encode_inj (readsAs.1.symm.trans isName)
        exact trimStart_of_trim (isTrim.symm.trans same)
    · obtain ⟨current, isCurrent', ⟨other, -⟩ | ⟨-, -, isOn⟩⟩ := settles
      · rw [isCurrent] at isCurrent'
        exact other (Except.ok.inj isCurrent').symm
      · apply elsewhere
        apply Subtype.ext
        rw [isOn, isNext, readsAs.1]
  · intro toldApart tools event isRun
    have settled : OnSettled repo owner request
        (handleCommitPushPrSlashCommand tools owner request ⟨repo, []⟩).2 := handle_events _ rfl
    obtain ⟨base, on, found, settles, among⟩ := settled event isRun
    have canCommit : repo.tip ≠ none ∨ HasMessage request := by
      by_contra neither
      rw [not_or, not_not] at neither
      have quiet : Quiet (handleCommitPushPrSlashCommand tools owner request ⟨repo, []⟩).2 :=
        quiet_handle neither.2 _ ⟨neither.1, rfl⟩
      rw [quiet.2] at isRun
      cases isRun
    obtain ⟨text, readsAs, ahead, fresh⟩ := toldApart ⟨⟨base, on, found, settles⟩, canCommit⟩
    obtain rfl := detect_of_readsAs isDefault readsAs found
    have elsewhere : on ≠ name := by
      rintro rfl
      obtain ⟨current, isCurrent, ⟨other, isHead⟩ | ⟨rfl, -, isOn⟩⟩ := settles
      · obtain ⟨name', text, isHead', isName, isTrim, -⟩ := currentBranch_iff.1 isCurrent
        obtain rfl := Head.branch.inj (isHead.symm.trans isHead')
        obtain rfl := encode_inj (readsAs.1.symm.trans isName)
        apply other
        rw [isTrim, trim, ahead isHead, readsAs.2.2]
      · exact fresh isCurrent (encode_inj (isOn.symm.trans readsAs.1))
    cases event with
    | commit head =>
        rintro rfl
        exact elsewhere (Head.branch.inj among).symm
    | push head branch =>
        rintro rfl
        exact elsewhere (Head.branch.inj among).symm
    | create against =>
        show encode against = name.1
        rw [show against = _ from among, readsAs.1]

def mainBranch : BranchName := ⟨bytesOf "main", by decide +kernel⟩

def fixRequest : CommitPushPrRequest where
  commitMessage := some "fix: parser".toList
  prTitle := "Fix the parser".toList
  prBody := []
  branchNameHint := []

/-- HEAD is on the default branch, which has a commit. -/
def onDefault (name : BranchName) : Repository Nat Unit where
  heads := [(name, 1)]
  head := .branch name
  index := ()
  originHead := some name

theorem spared_iff_main : Spared (onDefault mainBranch) ⟨some "ann".toList, none⟩ fixRequest mainBranch :=
  (spared_iff rfl).2 fun _ => ⟨"main".toList, by decide +kernel, fun _ => by decide +kernel,
    fun _ => by decide +kernel⟩

def releaseBranch : BranchName := ⟨bytesOf "release/1.0", by decide +kernel⟩

/-- **On `release/1.0` a change is committed to it**, and the pull request is against `1.0`. -/
theorem not_spared :
    ¬Spared (onDefault releaseBranch) ⟨some "ann".toList, none⟩ fixRequest releaseBranch := by
  intro spared
  have events : (handleCommitPushPrSlashCommand (willing true) ⟨some "ann".toList, none⟩ fixRequest
      ⟨onDefault releaseBranch, []⟩).2.events =
        [.commit (.branch releaseBranch), .push (.branch releaseBranch) "release/1.0".toList,
          .create "1.0".toList] := by
    decide +kernel
  exact spared (willing true) (.commit (.branch releaseBranch)) (by rw [events]; simp) rfl

end Openyak.Commands
