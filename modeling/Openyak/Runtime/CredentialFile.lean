/-
# Runtime.CredentialFile -- the credentials file, replaced call by call

A save or a removal of the credentials reads the file, writes the new contents beside it
and puts them in its place.  Each call of the file system may be done, fail, or be the one
at which the process stops (`Plan`).  What is at the path afterwards is the old contents or
the new ones, but for one gap: the old file is removed before the new one is renamed to its
place, so that a rename that is not done leaves neither (`allOrNothing_iff`).
-/
import Openyak.Runtime.Credentials
import Openyak.Theory.ByteStream
import Openyak.Theory.Utf8Stream

namespace Openyak.Runtime.CredentialFile

open Openyak.Theory
open Openyak.Theory.ByteStream (fromUtf8)
open Openyak.Runtime.Credentials (OAuthTokenSet Root encodeOAuthCredentials)

set_option autoImplicit false

inductive IoError
  | notFound
  | other (message : String)
  deriving DecidableEq, Repr

/-- Why a program did not return: an error it returned, or the process that ended. -/
inductive Halt
  | failed (error : IoError)
  | stopped
  deriving DecidableEq, Repr

/-- The calls an operation makes, in order: `exists` of a removal, `read_to_string`,
`create_dir_all` and `set_permissions` of the directory, the four of the temporary file,
those of `replace_credentials_file`, and the permissions of the file.  A removal that leaves
no credentials makes the last one only. -/
inductive Call
  | exists_
  | read
  | createDirAll
  | restrictDir
  | openTemp
  | writeTemp
  | syncTemp
  | restrictTemp
  | replaceExists
  | removeOld
  | rename
  | restrictFile
  | removeEmptied
  deriving DecidableEq, Repr

/-- A call that fails does so for another reason than that the file is not there. -/
inductive Outcome
  | done
  | fails (message : String)
  | stops
  deriving DecidableEq, Repr

/-- How every call goes, and how much of the contents a write that is not done has written. -/
structure Plan where
  outcome : Call → Outcome
  written : Nat

def faultless : Plan := ⟨fun _ => .done, 0⟩

/-- The files at the credentials path and at the path of its temporary file. -/
structure Disk where
  file : Option (List UInt8)
  temp : Option (List UInt8)
  deriving DecidableEq, Repr

abbrev Work := Action Disk Halt

/-- What `serde_json` reads of a text and writes of an object. -/
structure Serde where
  fromStr : List Char → Except String SerdeValue
  toStringPretty : Root → Except String (List Char)

section Calls

variable (plan : Plan)

def call (step : Call) : Work PUnit :=
  match plan.outcome step with
  | .done => pure ⟨⟩
  | .fails message => Action.fail (.failed (.other message))
  | .stops => Action.fail .stopped

/-- `Path::exists`, which is `false` when the call fails. -/
def pathExists (step : Call) : Work Bool := do
  match plan.outcome step with
  | .done => return (← Action.get).file.isSome
  | .fails _ => return false
  | .stops => Action.fail .stopped

def removeFile (step : Call) : Work PUnit := do
  call plan step
  match (← Action.get).file with
  | none => Action.fail (.failed .notFound)
  | some _ => Action.modify fun disk => { disk with file := none }

def openTemp : Work PUnit := do
  call plan .openTemp
  Action.modify fun disk => { disk with temp := some [] }

def writeAll (contents : List UInt8) : Work PUnit := do
  match ← Action.attempt (call plan .writeTemp) with
  | .ok _ => Action.modify fun disk => { disk with temp := some contents }
  | .error halt => do
      Action.modify fun disk => { disk with temp := some (contents.take plan.written) }
      Action.fail halt

def rename : Work PUnit := do
  call plan .rename
  match (← Action.get).temp with
  | none => Action.fail (.failed .notFound)
  | some contents => Action.modify fun _ => ⟨some contents, none⟩

def readToString : Work (List Char) := do
  call plan .read
  match (← Action.get).file with
  | none => Action.fail (.failed .notFound)
  | some bytes =>
      match fromUtf8 bytes with
      | none => Action.fail (.failed (.other "stream did not contain valid UTF-8"))
      | some text => return text

end Calls

def tolerateNotFound (act : Work PUnit) : Work PUnit := do
  match ← Action.attempt act with
  | .ok _ => pure ⟨⟩
  | .error (.failed .notFound) => pure ⟨⟩
  | .error halt => Action.fail halt

/-! ## The operations -/

section Operations

variable (serde : Serde) (plan : Plan)

def asObject (entries : SerdeMap) : Root :=
  entries.toList.foldl (fun root entry => root.insert entry.1 entry.2) .empty

/-- What the root of a file's contents is. -/
def parseRoot (contents : List Char) : Except IoError Root :=
  if Text.trim contents = [] then .ok .empty
  else
    match serde.fromStr contents with
    | .error message => .error (.other message)
    | .ok (.object entries) => .ok (asObject entries)
    | .ok _ => .error (.other "credentials file must contain a JSON object")

def ofExcept {α : Type} : Except IoError α → Work α
  | .ok value => pure value
  | .error error => Action.fail (.failed error)

def readCredentialsRoot : Work Root := do
  match ← Action.attempt (readToString plan) with
  | .ok contents => ofExcept (parseRoot serde contents)
  | .error (.failed .notFound) => return .empty
  | .error halt => Action.fail halt

def writeRestrictedCredentialsFile (contents : List UInt8) : Work PUnit := do
  openTemp plan
  writeAll plan contents
  call plan .syncTemp
  call plan .restrictTemp

def replaceCredentialsFile : Work PUnit := do
  if ← pathExists plan .replaceExists then
    tolerateNotFound (removeFile plan .removeOld)
  rename plan

/-- The bytes that are written of a root. -/
def renderRoot (root : Root) : Except IoError (List UInt8) :=
  match serde.toStringPretty root with
  | .error message => .error (.other message)
  | .ok rendered => .ok (Utf8Stream.encode (rendered ++ ['\n']))

def writeCredentialsRoot (root : Root) : Work PUnit := do
  call plan .createDirAll
  call plan .restrictDir
  let contents ← ofExcept (renderRoot serde root)
  writeRestrictedCredentialsFile plan contents
  replaceCredentialsFile plan
  call plan .restrictFile

def saveOAuthCredentialsToFile (tokenSet : OAuthTokenSet) : Work PUnit := do
  let root ← readCredentialsRoot serde plan
  writeCredentialsRoot serde plan (root.insert "oauth" (encodeOAuthCredentials tokenSet))

def removeOAuthCredentialsFromFile : Work PUnit := do
  if ← pathExists plan .exists_ then
    let root ← readCredentialsRoot serde plan
    if (root.remove "oauth").entries.isEmpty then tolerateNotFound (removeFile plan .removeEmptied)
    else writeCredentialsRoot serde plan (root.remove "oauth")
  else pure ⟨⟩

end Operations

inductive Operation
  | save (tokenSet : OAuthTokenSet)
  | remove

def Operation.run (serde : Serde) (plan : Plan) : Operation → Work PUnit
  | save tokenSet => saveOAuthCredentialsToFile serde plan tokenSet
  | remove => removeOAuthCredentialsFromFile serde plan

/-! ## What a call does -/

section Specs

variable {plan : Plan} {disk : Disk} {contents : List UInt8}

theorem pure_bind {α β : Type} (value : α) (next : α → Work β) :
    (pure value >>= next) = next value := rfl

theorem fail_bind {α β : Type} (halt : Halt) (next : α → Work β) :
    ((Action.fail halt : Work α) >>= next) = Action.fail halt := rfl

theorem call_done {step : Call} (done : plan.outcome step = .done) : call plan step = pure ⟨⟩ := by
  rw [call, done]

theorem call_other {step : Call} (other : plan.outcome step ≠ .done) :
    ∃ halt, call plan step = Action.fail halt := by
  rw [call]
  cases outcome : plan.outcome step with
  | done => exact absurd outcome other
  | fails message => exact ⟨_, rfl⟩
  | stops => exact ⟨_, rfl⟩

/-- The calls that write the temporary file. -/
def tempCalls : List Call := [.openTemp, .writeTemp, .syncTemp, .restrictTemp]

/-- **The temporary file is written whole or the program ends**; the file is left alone. -/
theorem writeRestricted_cases (plan : Plan) (contents : List UInt8) (disk : Disk) :
    ((∀ step ∈ tempCalls, plan.outcome step = .done) ∧
      writeRestrictedCredentialsFile plan contents disk =
        (.ok ⟨⟩, { disk with temp := some contents })) ∨
    ¬(∀ step ∈ tempCalls, plan.outcome step = .done) ∧
      ∃ halt temp, writeRestrictedCredentialsFile plan contents disk =
        (.error halt, { disk with temp := temp }) := by
  unfold writeRestrictedCredentialsFile openTemp writeAll
  simp only [tempCalls, List.forall_mem_cons, List.not_mem_nil, false_implies, implies_true,
    and_true]
  by_cases opened : plan.outcome .openTemp = .done
  · rw [call_done opened]
    by_cases wrote : plan.outcome .writeTemp = .done
    · rw [call_done wrote]
      by_cases synced : plan.outcome .syncTemp = .done
      · rw [call_done synced]
        by_cases restricted : plan.outcome .restrictTemp = .done
        · rw [call_done restricted]
          exact .inl ⟨⟨opened, wrote, synced, restricted⟩, rfl⟩
        · obtain ⟨halt, failed⟩ := call_other restricted
          rw [failed]
          exact .inr ⟨fun all => restricted all.2.2.2, halt, some contents, rfl⟩
      · obtain ⟨halt, failed⟩ := call_other synced
        rw [failed]
        exact .inr ⟨fun all => synced all.2.2.1, halt, some contents, rfl⟩
    · obtain ⟨halt, failed⟩ := call_other wrote
      rw [failed]
      exact .inr ⟨fun all => wrote all.2.1, halt, some (contents.take plan.written), rfl⟩
  · obtain ⟨halt, failed⟩ := call_other opened
    rw [failed]
    exact .inr ⟨fun all => opened all.1, halt, disk.temp, rfl⟩

theorem rename_done (renamed : plan.outcome .rename = .done) (temp : disk.temp = some contents) :
    rename plan disk = (.ok ⟨⟩, ⟨some contents, none⟩) := by
  rcases disk with ⟨file, _⟩
  cases temp
  rw [rename, call_done renamed]
  rfl

theorem rename_other (other : plan.outcome .rename ≠ .done) :
    ∃ halt, rename plan disk = (.error halt, disk) := by
  obtain ⟨halt, failed⟩ := call_other other
  rw [rename, failed]
  exact ⟨halt, rfl⟩

theorem rename_whole (temp : disk.temp = some contents) :
    (rename plan disk).2.file = disk.file ∨ (rename plan disk).2.file = some contents := by
  by_cases renamed : plan.outcome .rename = .done
  · rw [rename_done renamed temp]
    exact .inr rfl
  · obtain ⟨halt, failed⟩ := @rename_other plan disk renamed
    rw [failed]
    exact .inl rfl

/-- Removing the old file, where it is there. -/
theorem removeFile_cases {step : Call} {old : List UInt8} (file : disk.file = some old) :
    (plan.outcome step = .done ∧
      tolerateNotFound (removeFile plan step) disk = (.ok ⟨⟩, { disk with file := none })) ∨
    plan.outcome step ≠ .done ∧
      ∃ halt, tolerateNotFound (removeFile plan step) disk = (.error halt, disk) := by
  rcases disk with ⟨_, temp⟩
  cases file
  rw [removeFile]
  cases outcome : plan.outcome step with
  | done =>
      rw [call_done outcome]
      exact .inl ⟨rfl, rfl⟩
  | fails message =>
      rw [call, outcome]
      exact .inr ⟨nofun, _, rfl⟩
  | stops =>
      rw [call, outcome]
      exact .inr ⟨nofun, _, rfl⟩

/-- The old file is there and is removed, and the new one is not renamed to its place. -/
structure ReplaceGap (plan : Plan) (file : Option (List UInt8)) : Prop where
  old : file.isSome
  found : plan.outcome .replaceExists = .done
  removed : plan.outcome .removeOld = .done
  notRenamed : plan.outcome .rename ≠ .done

theorem pathExists_done {step : Call} (done : plan.outcome step = .done) :
    pathExists plan step disk = (.ok disk.file.isSome, disk) := by
  rw [pathExists, done]
  rfl

theorem replace_seen (found : pathExists plan .replaceExists disk = (.ok true, disk)) :
    replaceCredentialsFile plan disk =
      (tolerateNotFound (removeFile plan .removeOld) >>= fun _ => rename plan) disk := by
  rw [replaceCredentialsFile, Action.bind_ok found]
  rfl

theorem replace_unseen (missed : pathExists plan .replaceExists disk = (.ok false, disk)) :
    replaceCredentialsFile plan disk = rename plan disk := by
  rw [replaceCredentialsFile, Action.bind_ok missed]
  rfl

theorem replace_gap (gap : ReplaceGap plan disk.file) :
    (replaceCredentialsFile plan disk).2.file = none := by
  obtain ⟨old, isOld⟩ := Option.isSome_iff_exists.1 gap.old
  have found := @pathExists_done plan disk _ gap.found
  rw [gap.old] at found
  rcases @removeFile_cases plan disk .removeOld old isOld with ⟨-, removed⟩ | ⟨other, -⟩
  · obtain ⟨halt, failed⟩ := @rename_other plan { disk with file := none } gap.notRenamed
    have ended : (tolerateNotFound (removeFile plan .removeOld) >>= fun _ => rename plan) disk =
        (.error halt, { disk with file := none }) := (Action.bind_ok removed).trans failed
    rw [replace_seen found, ended]
  · exact absurd gap.removed other

/-- **The file is replaced whole or left whole**, but in the gap. -/
theorem replace_whole (temp : disk.temp = some contents) (noGap : ¬ReplaceGap plan disk.file) :
    (replaceCredentialsFile plan disk).2.file = disk.file ∨
      (replaceCredentialsFile plan disk).2.file = some contents := by
  cases outcome : plan.outcome .replaceExists with
  | stops =>
      rw [replaceCredentialsFile, pathExists, outcome]
      exact .inl rfl
  | fails message =>
      have missed : pathExists plan .replaceExists disk = (.ok false, disk) := by
        rw [pathExists, outcome]
        rfl
      rw [replace_unseen missed]
      exact rename_whole temp
  | done =>
      have found := @pathExists_done plan disk _ outcome
      cases file : disk.file with
      | none =>
          rw [file] at found
          rw [replace_unseen found, ← file]
          exact rename_whole temp
      | some old =>
          rw [file] at found
          rw [replace_seen found]
          rcases @removeFile_cases plan disk .removeOld old file with
            ⟨removed, done⟩ | ⟨-, halt, failed⟩
          · have renamed : plan.outcome .rename = .done := by
              by_contra other
              exact noGap ⟨by rw [file]; rfl, outcome, removed, other⟩
            have ended : (tolerateNotFound (removeFile plan .removeOld) >>= fun _ => rename plan)
                disk = (.ok ⟨⟩, ⟨some contents, none⟩) :=
              (Action.bind_ok done).trans (rename_done renamed temp)
            rw [ended]
            exact .inr rfl
          · have ended : (tolerateNotFound (removeFile plan .removeOld) >>= fun _ => rename plan)
                disk = (.error halt, disk) := Action.bind_error failed
            rw [ended]
            exact .inl file

theorem replace_done (found : plan.outcome .replaceExists = .done)
    (removed : plan.outcome .removeOld = .done) (renamed : plan.outcome .rename = .done)
    (temp : disk.temp = some contents) :
    (replaceCredentialsFile plan disk).2.file = some contents := by
  have seen := @pathExists_done plan disk _ found
  cases file : disk.file with
  | none =>
      rw [file] at seen
      rw [replace_unseen seen, rename_done renamed temp]
  | some old =>
      rw [file] at seen
      rcases @removeFile_cases plan disk .removeOld old file with ⟨-, done⟩ | ⟨other, -⟩
      · have ended : (tolerateNotFound (removeFile plan .removeOld) >>= fun _ => rename plan)
            disk = (.ok ⟨⟩, ⟨some contents, none⟩) :=
          (Action.bind_ok done).trans (rename_done renamed temp)
        rw [replace_seen seen, ended]
      · exact absurd removed other

/-! ## The write of a root -/

variable {serde : Serde} {root : Root}

/-- The calls before the file is replaced. -/
def writeCalls : List Call := [.createDirAll, .restrictDir] ++ tempCalls

theorem restrictFile_file (act : Work PUnit) :
    ((act >>= fun _ => call plan .restrictFile) disk).2.file = (act disk).2.file := by
  cases first : act disk with
  | mk outcome middle =>
      cases outcome with
      | error halt => rw [Action.bind_error first]
      | ok _ =>
          rw [Action.bind_ok first]
          by_cases done : plan.outcome .restrictFile = .done
          · rw [call_done done]
            rfl
          · obtain ⟨halt, failed⟩ := call_other done
            rw [failed]
            rfl

/-- **A write that does not come to the replacement leaves the file alone**; one that does
leaves what the replacement leaves. -/
theorem writeCredentialsRoot_file (serde : Serde) (plan : Plan) (root : Root) (disk : Disk) :
    (∃ contents, renderRoot serde root = .ok contents ∧
      (∀ step ∈ writeCalls, plan.outcome step = .done) ∧
      (writeCredentialsRoot serde plan root disk).2.file =
        (replaceCredentialsFile plan { disk with temp := some contents }).2.file) ∨
    ¬((∃ contents, renderRoot serde root = .ok contents) ∧
        ∀ step ∈ writeCalls, plan.outcome step = .done) ∧
      (writeCredentialsRoot serde plan root disk).2.file = disk.file := by
  have split : (∀ step ∈ writeCalls, plan.outcome step = .done) ↔
      plan.outcome .createDirAll = .done ∧ plan.outcome .restrictDir = .done ∧
        ∀ step ∈ tempCalls, plan.outcome step = .done := by
    rw [writeCalls, List.forall_mem_append, List.forall_mem_cons, List.forall_mem_singleton,
      and_assoc]
  rw [split, writeCredentialsRoot]
  by_cases created : plan.outcome .createDirAll = .done
  · rw [call_done created]
    by_cases restricted : plan.outcome .restrictDir = .done
    · rw [call_done restricted]
      cases rendered : renderRoot serde root with
      | error error =>
          refine .inr ⟨?_, rfl⟩
          rintro ⟨⟨contents, isContents⟩, -⟩
          cases isContents
      | ok contents =>
          rcases writeRestricted_cases plan contents disk with ⟨all, wrote⟩ | ⟨some_, halt, temp, failed⟩
          · refine .inl ⟨contents, rfl, ⟨created, restricted, all⟩, ?_⟩
            show ((writeRestrictedCredentialsFile plan contents >>= fun _ =>
              replaceCredentialsFile plan >>= fun _ => call plan .restrictFile) disk).2.file = _
            rw [Action.bind_ok wrote]
            exact restrictFile_file _
          · refine .inr ⟨fun held => some_ held.2.2.2, ?_⟩
            show ((writeRestrictedCredentialsFile plan contents >>= fun _ =>
              replaceCredentialsFile plan >>= fun _ => call plan .restrictFile) disk).2.file = _
            rw [Action.bind_error failed]
    · obtain ⟨halt, failed⟩ := call_other restricted
      rw [failed]
      exact .inr ⟨fun held => restricted held.2.2.1, rfl⟩
  · obtain ⟨halt, failed⟩ := call_other created
    rw [failed]
    exact .inr ⟨fun held => created held.2.1, rfl⟩

/-! ## What an operation does to the file -/

/-- The root of the file as it is. -/
def rootOf (serde : Serde) (disk : Disk) : Except IoError Root :=
  match disk.file with
  | none => .ok .empty
  | some bytes =>
      match fromUtf8 bytes with
      | none => .error (.other "stream did not contain valid UTF-8")
      | some text => parseRoot serde text

theorem readToString_done (done : plan.outcome .read = .done) :
    readToString plan disk =
      (match disk.file with
      | none => .error (.failed .notFound)
      | some bytes =>
          match fromUtf8 bytes with
          | none => .error (.failed (.other "stream did not contain valid UTF-8"))
          | some text => .ok text, disk) := by
  rw [readToString, call_done done]
  rcases disk with ⟨_ | bytes, temp⟩
  · rfl
  · show (match fromUtf8 bytes with
      | none => Action.fail (.failed (.other "stream did not contain valid UTF-8"))
      | some text => pure text : Work (List Char)) ⟨some bytes, temp⟩ = _
    dsimp only
    cases fromUtf8 bytes <;> rfl

theorem readCredentialsRoot_done (done : plan.outcome .read = .done) :
    readCredentialsRoot serde plan disk =
      match rootOf serde disk with
      | .ok root => (.ok root, disk)
      | .error error => (.error (.failed error), disk) := by
  have read := @readToString_done plan disk done
  have attempted : Action.attempt (readToString plan) disk =
      (.ok (readToString plan disk).1, (readToString plan disk).2) := rfl
  rw [read] at attempted
  rw [readCredentialsRoot, Action.bind_ok attempted, rootOf]
  cases file : disk.file with
  | none => rfl
  | some bytes =>
      dsimp only
      cases fromUtf8 bytes with
      | none => rfl
      | some text =>
          show ofExcept (parseRoot serde text) disk = _
          dsimp only
          cases parseRoot serde text <;> rfl

theorem readCredentialsRoot_other (other : plan.outcome .read ≠ .done) :
    ∃ halt, readCredentialsRoot serde plan disk = (.error halt, disk) := by
  rw [readCredentialsRoot, readToString, call]
  cases outcome : plan.outcome .read with
  | done => exact absurd outcome other
  | fails message => exact ⟨_, rfl⟩
  | stops => exact ⟨_, rfl⟩

/-- What an operation comes to do, if it reads the file. -/
inductive Effect
  | nothing
  | delete
  | write (root : Root)

def Operation.effect (serde : Serde) (disk : Disk) : Operation → Effect
  | save tokenSet =>
      match rootOf serde disk with
      | .ok root => .write (root.insert "oauth" (encodeOAuthCredentials tokenSet))
      | .error _ => .nothing
  | remove =>
      match rootOf serde disk with
      | .ok root =>
          if disk.file.isSome then
            if (root.remove "oauth").entries.isEmpty then .delete else .write (root.remove "oauth")
          else .nothing
      | .error _ => .nothing

/-- The calls up to the reading of the file. -/
def Operation.readCalls : Operation → List Call
  | save _ => [.read]
  | remove => [.exists_, .read]

def effectFile (serde : Serde) (plan : Plan) (disk : Disk) : Effect → Option (List UInt8)
  | .nothing => disk.file
  | .delete => (tolerateNotFound (removeFile plan .removeEmptied) disk).2.file
  | .write root => (writeCredentialsRoot serde plan root disk).2.file

theorem save_file (tokenSet : OAuthTokenSet) (done : plan.outcome .read = .done) :
    (saveOAuthCredentialsToFile serde plan tokenSet disk).2.file =
      effectFile serde plan disk ((Operation.save tokenSet).effect serde disk) := by
  have read := @readCredentialsRoot_done plan disk serde done
  rw [saveOAuthCredentialsToFile, Operation.effect]
  cases parsed : rootOf serde disk with
  | ok root =>
      rw [parsed] at read
      rw [Action.bind_ok read]
      rfl
  | error error =>
      rw [parsed] at read
      rw [Action.bind_error read]
      rfl

theorem remove_seen (found : pathExists plan .exists_ disk = (.ok true, disk)) :
    removeOAuthCredentialsFromFile serde plan disk = (readCredentialsRoot serde plan >>= fun root =>
      if (root.remove "oauth").entries.isEmpty then tolerateNotFound (removeFile plan .removeEmptied)
      else writeCredentialsRoot serde plan (root.remove "oauth")) disk := by
  rw [removeOAuthCredentialsFromFile, Action.bind_ok found]
  rfl

theorem remove_unseen (missed : pathExists plan .exists_ disk = (.ok false, disk)) :
    removeOAuthCredentialsFromFile serde plan disk = (.ok ⟨⟩, disk) := by
  rw [removeOAuthCredentialsFromFile, Action.bind_ok missed]
  rfl

theorem remove_file (existed : plan.outcome .exists_ = .done) (done : plan.outcome .read = .done) :
    (removeOAuthCredentialsFromFile serde plan disk).2.file =
      effectFile serde plan disk (Operation.remove.effect serde disk) := by
  have found := @pathExists_done plan disk _ existed
  have read := @readCredentialsRoot_done plan disk serde done
  rw [Operation.effect]
  cases file : disk.file.isSome with
  | false =>
      rw [file] at found
      rw [remove_unseen found]
      cases rootOf serde disk <;> rfl
  | true =>
      rw [file] at found
      rw [remove_seen found]
      cases parsed : rootOf serde disk with
      | ok root =>
          rw [parsed] at read
          rw [Action.bind_ok read]
          dsimp only
          rw [if_pos rfl]
          split <;> rfl
      | error error =>
          rw [parsed] at read
          rw [Action.bind_error read]
          rfl

/-- **An operation does to the file what its effect says**, once the file is read. -/
theorem run_file (operation : Operation) :
    ((∀ step ∈ operation.readCalls, plan.outcome step = .done) →
      (operation.run serde plan disk).2.file =
        effectFile serde plan disk (operation.effect serde disk)) ∧
    (¬(∀ step ∈ operation.readCalls, plan.outcome step = .done) →
      (operation.run serde plan disk).2.file = disk.file) := by
  cases operation with
  | save tokenSet =>
      rw [Operation.readCalls, List.forall_mem_singleton]
      refine ⟨save_file tokenSet, fun other => ?_⟩
      obtain ⟨halt, failed⟩ := @readCredentialsRoot_other plan disk serde other
      rw [Operation.run, saveOAuthCredentialsToFile, Action.bind_error failed]
  | remove =>
      rw [Operation.readCalls, List.forall_mem_cons, List.forall_mem_singleton]
      refine ⟨fun done => remove_file done.1 done.2, fun other => ?_⟩
      rw [Operation.run]
      cases outcome : plan.outcome .exists_ with
      | stops =>
          rw [removeOAuthCredentialsFromFile, pathExists, outcome]
          rfl
      | fails message =>
          have missed : pathExists plan .exists_ disk = (.ok false, disk) := by
            rw [pathExists, outcome]
            rfl
          rw [remove_unseen missed]
      | done =>
          have notRead : plan.outcome .read ≠ .done := fun done => other ⟨outcome, done⟩
          obtain ⟨halt, failed⟩ := @readCredentialsRoot_other plan disk serde notRead
          have found := @pathExists_done plan disk _ outcome
          cases file : disk.file.isSome with
          | false =>
              rw [file] at found
              rw [remove_unseen found]
          | true =>
              rw [file] at found
              rw [remove_seen found, Action.bind_error failed]

/-! ## All or nothing -/

/-- What the file is after the operation is what it was, or what the operation leaves where
every call is done. -/
def AllOrNothing (serde : Serde) (plan : Plan) (operation : Operation) (disk : Disk) : Prop :=
  (operation.run serde plan disk).2.file = disk.file ∨
    (operation.run serde plan disk).2.file = (operation.run serde faultless disk).2.file

/-- The operation comes to replace the file and stops in the gap. -/
structure Gap (serde : Serde) (plan : Plan) (operation : Operation) (disk : Disk) : Prop where
  read : ∀ step ∈ operation.readCalls, plan.outcome step = .done
  writes : ∃ root contents, operation.effect serde disk = .write root ∧
    renderRoot serde root = .ok contents
  written : ∀ step ∈ writeCalls, plan.outcome step = .done
  replace : ReplaceGap plan disk.file

theorem faultless_write {contents : List UInt8} (rendered : renderRoot serde root = .ok contents) :
    (writeCredentialsRoot serde faultless root disk).2.file = some contents := by
  rcases writeCredentialsRoot_file serde faultless root disk with
    ⟨other, isOther, -, file⟩ | ⟨none_, -⟩
  · rw [rendered] at isOther
    cases isOther
    rw [file]
    exact replace_done rfl rfl rfl rfl
  · exact absurd ⟨⟨contents, rendered⟩, fun _ _ => rfl⟩ none_

/-- **A write is all or nothing exactly** outside the gap. -/
theorem write_iff {contents : List UInt8} (rendered : renderRoot serde root = .ok contents) :
    ((writeCredentialsRoot serde plan root disk).2.file = disk.file ∨
      (writeCredentialsRoot serde plan root disk).2.file = some contents) ↔
    ¬((∀ step ∈ writeCalls, plan.outcome step = .done) ∧ ReplaceGap plan disk.file) := by
  rcases writeCredentialsRoot_file serde plan root disk with
    ⟨other, isOther, written, file⟩ | ⟨none_, file⟩
  · rw [rendered] at isOther
    cases isOther
    rw [file]
    constructor
    · rintro whole ⟨-, gap⟩
      have gone := @replace_gap plan { disk with temp := some contents } gap
      obtain ⟨old, isOld⟩ := Option.isSome_iff_exists.1 gap.old
      rcases whole with isWhole | isNew
      · rw [gone, isOld] at isWhole
        cases isWhole
      · rw [gone] at isNew
        cases isNew
    · intro noGap
      exact replace_whole rfl fun gap => noGap ⟨written, gap⟩
  · constructor
    · rintro - ⟨written, -⟩
      exact none_ ⟨⟨contents, rendered⟩, written⟩
    · intro _
      exact .inl file

theorem write_unrendered (unrendered : ∀ contents, renderRoot serde root ≠ .ok contents) :
    (writeCredentialsRoot serde plan root disk).2.file = disk.file := by
  rcases writeCredentialsRoot_file serde plan root disk with ⟨contents, isContents, -⟩ | ⟨-, file⟩
  · exact absurd isContents (unrendered contents)
  · exact file

theorem delete_whole (there : disk.file.isSome) :
    effectFile serde plan disk .delete = disk.file ∨
      effectFile serde plan disk .delete = effectFile serde faultless disk .delete := by
  obtain ⟨old, isOld⟩ := Option.isSome_iff_exists.1 there
  have deletes : effectFile serde faultless disk .delete = none := by
    rcases @removeFile_cases faultless disk .removeEmptied old isOld with ⟨-, done⟩ | ⟨other, -⟩
    · rw [effectFile, done]
    · exact absurd rfl other
  rw [deletes, effectFile]
  rcases @removeFile_cases plan disk .removeEmptied old isOld with ⟨-, done⟩ | ⟨-, halt, failed⟩
  · rw [done]
    exact .inr rfl
  · rw [failed]
    exact .inl rfl

theorem isSome_of_delete {operation : Operation} (deletes : operation.effect serde disk = .delete) :
    disk.file.isSome := by
  cases operation with
  | save tokenSet =>
      rw [Operation.effect] at deletes
      split at deletes <;> cases deletes
  | remove =>
      rw [Operation.effect] at deletes
      split at deletes
      · split at deletes
        · assumption
        · cases deletes
      · cases deletes

end Specs

/-- **The credentials file is replaced all or nothing exactly outside the gap**, whatever is
in it, whatever is saved or removed and however the calls go. -/
theorem allOrNothing_iff (serde : Serde) (plan : Plan) (operation : Operation) (disk : Disk) :
    AllOrNothing serde plan operation disk ↔ ¬Gap serde plan operation disk := by
  obtain ⟨readFile, unreadFile⟩ := @run_file plan disk serde operation
  have wholeFile := (@run_file faultless disk serde operation).1 fun _ _ => rfl
  rw [AllOrNothing, wholeFile]
  by_cases read : ∀ step ∈ operation.readCalls, plan.outcome step = .done
  · rw [readFile read]
    cases effect : operation.effect serde disk with
    | nothing =>
        refine ⟨fun _ gap => ?_, fun _ => .inl rfl⟩
        obtain ⟨root, contents, writes, -⟩ := gap.writes
        rw [effect] at writes
        cases writes
    | delete =>
        refine ⟨fun _ gap => ?_, fun _ => delete_whole (isSome_of_delete effect)⟩
        obtain ⟨root, contents, writes, -⟩ := gap.writes
        rw [effect] at writes
        cases writes
    | write root =>
        cases rendered : renderRoot serde root with
        | error error =>
            have unrendered : ∀ contents, renderRoot serde root ≠ .ok contents := by
              intro contents isContents
              rw [rendered] at isContents
              cases isContents
            refine ⟨fun _ gap => ?_, fun _ => .inl (write_unrendered unrendered)⟩
            obtain ⟨other, contents, writes, isContents⟩ := gap.writes
            rw [effect] at writes
            cases writes
            exact unrendered contents isContents
        | ok contents =>
            rw [effectFile, effectFile, faultless_write rendered, write_iff rendered]
            constructor
            · exact fun noGap gap => noGap ⟨gap.written, gap.replace⟩
            · rintro noGap ⟨written, replace⟩
              exact noGap ⟨read, ⟨root, contents, effect, rendered⟩, written, replace⟩
  · rw [unreadFile read]
    exact ⟨fun _ gap => read gap.read, fun _ => .inl rfl⟩

/-! ## The gap is reached -/

/-- A `serde_json` that knows one text and its object. -/
def smallSerde : Serde where
  fromStr _ := .ok (.object .nil)
  toStringPretty _ := .ok "\x7b\x7d".toList

/-- The rename fails, as it does where another program holds the temporary file. -/
def renameFails : Plan where
  outcome step := if step = .rename then .fails "Permission denied" else .done
  written := 0

def savedTokens : OAuthTokenSet := ⟨"access", none, none, []⟩

def savedDisk : Disk := ⟨some (Utf8Stream.encode "\x7b\x7d\n".toList), none⟩

theorem not_allOrNothing : ¬∀ serde plan operation disk, AllOrNothing serde plan operation disk := by
  intro whole
  have gone : ((Operation.save savedTokens).run smallSerde renameFails savedDisk).2.file = none := by
    decide +kernel
  have replaced : ((Operation.save savedTokens).run smallSerde faultless savedDisk).2.file =
      some (Utf8Stream.encode "\x7b\x7d\n".toList) := by
    decide +kernel
  rcases whole smallSerde renameFails (.save savedTokens) savedDisk with isOld | isNew
  · rw [gone] at isOld
    cases isOld
  · rw [gone, replaced] at isNew
    cases isNew

end Openyak.Runtime.CredentialFile
