/-
# Lsp.Documents -- what a client tells its server about documents

`open_documents` maps the paths of open documents to their last version.  It, the writer
and the checks of it are locked one after the other, so between the look at the map, the
numbering of a change, the notification and the entry in the map other operations may go
on.  `step` is what one operation does between two such points.

The map is keyed by `PathBuf`, which compares paths by their components; `Url::from_file_path`
writes these components into a URI, each its own.
-/
import Openyak.Theory.DocumentSync
import Openyak.Theory.Run
import Openyak.Lsp.Transport
import Mathlib.Data.List.AList

namespace Openyak.Lsp

open Openyak.Theory Openyak.Theory.ByteStream Openyak.Theory.Posix
open Openyak.Theory.Text (toAsciiLowercase)

set_option autoImplicit false

/-! ## Paths and languages -/

/-- `Url::from_file_path` on the components of a path. -/
structure FileUrls where
  urlOf : Path → Option String
  injective : ∀ {path other uri}, urlOf path = some uri → urlOf other = some uri → path = other

/-- `LspServerConfig`, as far as documents are concerned. -/
structure LspServerConfig where
  extensionToLanguage : AList fun _ : List Char => String

def normalizeExtension (extension : List Char) : List Char :=
  if extension.head? = some '.' then toAsciiLowercase extension
  else '.' :: toAsciiLowercase extension

def LspServerConfig.languageIdFor (config : LspServerConfig) (path : Path) : Option String :=
  path.extension.bind fun extension =>
    config.extensionToLanguage.lookup (normalizeExtension extension)

def fileUrl (urls : FileUrls) (path : Path) : Option String := urls.urlOf path.normal

/-! ## Notifications -/

inductive Notification where
  | didOpen (uri languageId : String) (version : Int32) (text : String)
  | didChange (uri : String) (version : Int32) (text : String)
  | didSave (uri : String)
  | didClose (uri : String)

namespace Notification

def uri : Notification → String
  | .didOpen uri _ _ _ | .didChange uri _ _ | .didSave uri | .didClose uri => uri

/-- The message that `notify` writes. -/
def payload : Notification → Json
  | .didOpen uri languageId version text =>
      notificationPayload "textDocument/didOpen" (.ofFields [("textDocument", .ofFields
        [("uri", .string uri), ("languageId", .string languageId),
          ("version", Json.ofI64 version.toInt64), ("text", .string text)])])
  | .didChange uri version text =>
      notificationPayload "textDocument/didChange" (.ofFields [("textDocument", .ofFields
        [("uri", .string uri), ("version", Json.ofI64 version.toInt64)]),
        ("contentChanges", .array [.ofFields [("text", .string text)]])])
  | .didSave uri =>
      notificationPayload "textDocument/didSave"
        (.ofFields [("textDocument", .ofFields [("uri", .string uri)])])
  | .didClose uri =>
      notificationPayload "textDocument/didClose"
        (.ofFields [("textDocument", .ofFields [("uri", .string uri)])])

/-- What it tells the server about its document. -/
def event : Notification → SyncEvent Int String
  | .didOpen _ _ version text => .opened version.toInt text
  | .didChange _ version text => .changed version.toInt text
  | .didSave _ => .saved
  | .didClose _ => .closed

end Notification

/-- What the server was told about one document. -/
def told (uri : String) (written : List Notification) : List (SyncEvent Int String) :=
  (written.filter fun notification => notification.uri = uri).map Notification.event

/-! ## Operations -/

inductive Operation where
  | openDocument (path : Path) (text : String)
  | ensureDocumentOpen (path : Path)
  | changeDocument (path : Path) (text : String)
  | saveDocument (path : Path)
  | closeDocument (path : Path)

def Operation.path : Operation → Path
  | .openDocument path _ | .ensureDocumentOpen path | .changeDocument path _
  | .saveDocument path | .closeDocument path => path

/-- What an operation has still to do when it has looked whether its document is open. -/
inductive Duty where
  | opening (languageId text : String)
  | opened
  | numbering (text : String)
  | changing (version : Int32) (text : String)
  | saving
  | closing
  | closed

inductive Task where
  | checking (operation : Operation)
  | active (key : Path) (uri : String) (duty : Duty)
  | finished (result : Except LspError Unit)

/-- The last version of a document on the client, the notifications that reached the server,
and the operations in progress. -/
structure Documents where
  openDocuments : AList (fun _ : Path => Int32) := ∅
  written : List Notification := []
  tasks : Nat → Option Task := fun _ => none

inductive DocumentEvent where
  | start (task : Nat) (operation : Operation)
  | check (task : Nat) (contents : Except IoError String)
  | number (task : Nat)
  | write (task : Nat) (failure : Option LspError)
  | record (task : Nat)

variable (config : LspServerConfig) (urls : FileUrls)

/-- `open_document` up to its notification; it does not look whether the document is open. -/
def beginOpen (path : Path) (text : String) : Task :=
  match fileUrl urls path with
  | none => .finished (.error (.pathToUrl path))
  | some uri =>
      match config.languageIdFor path with
      | none => .finished (.error (.unsupportedDocument path))
      | some languageId => .active path.normal uri (.opening languageId text)

def beginDuty (path : Path) (duty : Duty) : Task :=
  match fileUrl urls path with
  | none => .finished (.error (.pathToUrl path))
  | some uri => .active path.normal uri duty

/-- What an operation goes on to when it has looked; `contents` is the file on the disk. -/
def afterCheck (isOpen : Bool) (contents : Except IoError String) : Operation → Task
  | .openDocument path text => beginOpen config urls path text
  | .ensureDocumentOpen path =>
      if isOpen then .finished (.ok ())
      else
        match contents with
        | .ok text => beginOpen config urls path text
        | .error error => .finished (.error (.io error))
  | .changeDocument path text =>
      if isOpen then beginDuty urls path (.numbering text) else beginOpen config urls path text
  | .saveDocument path => if isOpen then beginDuty urls path .saving else .finished (.ok ())
  | .closeDocument path => if isOpen then beginDuty urls path .closing else .finished (.ok ())

/-- The notification a duty writes, and what is left to do behind it. -/
def Duty.notification (uri : String) : Duty → Option (Notification × Option Duty)
  | .opening languageId text => some (.didOpen uri languageId 1 text, some .opened)
  | .changing version text => some (.didChange uri version text, none)
  | .saving => some (.didSave uri, none)
  | .closing => some (.didClose uri, some .closed)
  | .numbering _ | .opened | .closed => none

namespace Documents

def setTask (documents : Documents) (task : Nat) (state : Task) : Documents :=
  { documents with tasks := Function.update documents.tasks task (some state) }

/-- `is_document_open`. -/
def isOpen (documents : Documents) (key : Path) : Bool := (documents.openDocuments.lookup key).isSome

/-- The version a change takes; a document that is not there any more gets its first. -/
def nextVersion (documents : Documents) (key : Path) : Int32 :=
  match documents.openDocuments.lookup key with
  | some version => version + 1
  | none => 1

def continueWith (key : Path) (uri : String) : Option Duty → Task
  | some duty => .active key uri duty
  | none => .finished (.ok ())

/-- One event, if it can happen. -/
def step (documents : Documents) : DocumentEvent → Option Documents
  | .start task operation =>
      match documents.tasks task with
      | none => some (documents.setTask task (.checking operation))
      | some _ => none
  | .check task contents =>
      match documents.tasks task with
      | some (.checking operation) =>
          some (documents.setTask task (afterCheck config urls
            (documents.isOpen operation.path.normal) contents operation))
      | _ => none
  | .number task =>
      match documents.tasks task with
      | some (.active key uri (.numbering text)) =>
          let version := documents.nextVersion key
          some { documents.setTask task (.active key uri (.changing version text)) with
            openDocuments := documents.openDocuments.insert key version }
      | _ => none
  | .write task failure =>
      match documents.tasks task with
      | some (.active key uri duty) =>
          match duty.notification uri with
          | some (notification, left) =>
              match failure with
              | some error => some (documents.setTask task (.finished (.error error)))
              | none => some { documents.setTask task (continueWith key uri left) with
                  written := documents.written ++ [notification] }
          | none => none
      | _ => none
  | .record task =>
      match documents.tasks task with
      | some (.active key _ .opened) =>
          some { documents.setTask task (.finished (.ok ())) with
            openDocuments := documents.openDocuments.insert key 1 }
      | some (.active key _ .closed) =>
          some { documents.setTask task (.finished (.ok ())) with
            openDocuments := documents.openDocuments.erase key }
      | _ => none

end Documents

end Openyak.Lsp
