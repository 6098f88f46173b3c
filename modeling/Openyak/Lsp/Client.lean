/-
# Lsp.Client -- requests of a language server client, and the task that reads the answers

`LspClient::request` takes a number, puts the sender of a new channel into
`pending_requests` under it, writes the message, and waits at the channel.  The reader task
takes one message after the other from the server's output.  A message with an integer `id`
goes to the channel under that number; no `method` is looked for first.

Between two of these the tasks may switch, so a state of the client is followed through
events, each what one task does without giving way.  `Event.read` names the request that a
message answers, if it answers one; the client does not see it.
-/
import Openyak.Theory.Rendezvous
import Openyak.Theory.Run
import Openyak.Lsp.Transport

namespace Openyak.Lsp

open Openyak.Theory Openyak.Theory.ByteStream

set_option autoImplicit false

/-- How far a call of `request` is. -/
inductive Stage where
  | numbered
  | registered
  | failing (error : LspError)
  | waiting
  | returned (result : Except LspError Json)

structure Call where
  method : String
  params : Json
  id : Int64
  stage : Stage

/-- `requests` are `pending_requests` and the channels; `written`, `heard` and `answered`
are what the server got, which requests it heard, and which of them it answered with what. -/
structure LspClient where
  nextRequestId : Int64 := 1
  requests : Rendezvous Int64 Nat (Except LspError Json) := .empty
  diagnostics : AList (fun _ : String => List Json) := ∅
  calls : Nat → Option Call := fun _ => none
  reading : Bool := true
  incoming : Incoming
  written : List UInt8 := []
  heard : List Nat := []
  answered : List (Nat × Json) := []

inductive Event where
  | call (caller : Nat) (method : String) (params : Json)
  | register (caller : Nat)
  | write (caller : Nat)
  | sent (caller : Nat) (failure : Option LspError)
  | withdraw (caller : Nat)
  | receive (caller : Nat)
  | read (answers : Option Nat)

namespace LspClient

/-- The client as `connect` leaves it to its first request. -/
def connected (incoming : Incoming) : LspClient := { incoming := incoming }

def setStage (client : LspClient) (caller : Nat) (call : Call) (stage : Stage) : LspClient :=
  { client with calls := Function.update client.calls caller (some { call with stage := stage }) }

/-! ## The reader task -/

/-- What the caller of a request is sent for a message. -/
def responseOf (serde : Serde) (message : Json) : Except LspError Json :=
  match message.get? "error" with
  | some error => .error (.protocol (serde.valueText error))
  | none => .ok ((message.get? "result").getD .null)

/-- The number a message is looked up by. -/
def idOf (message : Json) : Option Int64 := (message.get? "id").bind Json.asI64?

def publish (client : LspClient) (notification : PublishDiagnosticsParams) : LspClient :=
  { client with
    diagnostics :=
      if notification.diagnostics.isEmpty then client.diagnostics.erase notification.uri
      else client.diagnostics.insert notification.uri notification.diagnostics }

/-- One turn of the reader's loop. -/
def handle (serde : Serde) (client : LspClient) (message : Json) : Except LspError LspClient :=
  match idOf message with
  | some id =>
      .ok { client with requests := client.requests.deliver id (responseOf serde message) }
  | none =>
      if (message.get? "method").bind Json.asStr? = some "textDocument/publishDiagnostics" then
        match serde.publishDiagnostics ((message.get? "params").getD .null) with
        | .ok notification => .ok (client.publish notification)
        | .error message => .error (.json message)
      else .ok client

def endReading (client : LspClient) : LspClient := { client with reading := false }

/-- The loop has ended with an error: everybody who waits gets it. -/
def failReading (serde : Serde) (client : LspClient) (error : LspError) : LspClient :=
  { client.endReading with
    requests := client.requests.drain (.error (.protocol (serde.errorText error))) }

def leaveUnread (client : LspClient) (rest : List UInt8) : LspClient :=
  { client with incoming := { client.incoming with bytes := rest } }

def record (client : LspClient) (answers : Option Nat) (message : Json) : LspClient :=
  { client with
    answered := client.answered ++ (answers.map fun caller => (caller, message)).toList }

def readNext (serde : Serde) (client : LspClient) (answers : Option Nat) : LspClient :=
  match readMessage serde client.incoming with
  | (.message message, rest) =>
      let unread := (client.leaveUnread rest).record answers message
      match handle serde unread message with
      | .ok next => next
      | .error error => unread.failReading serde error
  | (.failed error, rest) => (client.leaveUnread rest).failReading serde error
  | (.ended, rest) | (.panicked, rest) => (client.leaveUnread rest).endReading

/-! ## `request` -/

def beginCall (client : LspClient) (caller : Nat) (method : String) (params : Json) : LspClient :=
  { client with
    nextRequestId := client.nextRequestId + 1
    calls := Function.update client.calls caller
      (some ⟨method, params, client.nextRequestId, .numbered⟩) }

def registerCall (client : LspClient) (caller : Nat) (call : Call) : LspClient :=
  { client.setStage caller call .registered with
    requests := client.requests.register call.id caller }

def writeCall (serde : Serde) (client : LspClient) (caller : Nat) (call : Call) : LspClient :=
  { client with
    written := client.written ++ frame serde (requestPayload call.id call.method call.params)
    heard := client.heard ++ [caller] }

def withdrawCall (client : LspClient) (caller : Nat) (call : Call) (error : LspError) :
    LspClient :=
  { client.setStage caller call (.returned (.error error)) with
    requests := client.requests.withdraw call.id }

/-- What `request` returns for what its channel gave it. -/
def resultOf (serde : Serde) (method : String) :
    Option (Except LspError Json) → Except LspError Json
  | none => .error (.protocol ("request channel closed for " ++ method))
  | some (.error error) => .error error
  | some (.ok response) => (serde.response method response).mapError .json

/-- One event, if it can happen. -/
def step (serde : Serde) (client : LspClient) : Event → Option LspClient
  | .call caller method params =>
      match client.calls caller with
      | none => some (client.beginCall caller method params)
      | some _ => none
  | .register caller =>
      match client.calls caller with
      | some ⟨method, params, id, .numbered⟩ =>
          some (client.registerCall caller ⟨method, params, id, .numbered⟩)
      | _ => none
  | .write caller =>
      match client.calls caller with
      | some ⟨method, params, id, .registered⟩ =>
          if caller ∈ client.heard then none
          else some (client.writeCall serde caller ⟨method, params, id, .registered⟩)
      | _ => none
  | .sent caller none =>
      match client.calls caller with
      | some ⟨method, params, id, .registered⟩ =>
          if caller ∈ client.heard then
            some (client.setStage caller ⟨method, params, id, .registered⟩ .waiting)
          else none
      | _ => none
  | .sent caller (some error) =>
      match client.calls caller with
      | some ⟨method, params, id, .registered⟩ =>
          some (client.setStage caller ⟨method, params, id, .registered⟩ (.failing error))
      | _ => none
  | .withdraw caller =>
      match client.calls caller with
      | some ⟨method, params, id, .failing error⟩ =>
          some (client.withdrawCall caller ⟨method, params, id, .failing error⟩ error)
      | _ => none
  | .receive caller =>
      match client.calls caller with
      | some ⟨method, params, id, .waiting⟩ =>
          (client.requests.poll caller).map fun received =>
            client.setStage caller ⟨method, params, id, .waiting⟩
              (.returned (resultOf serde method received))
      | _ => none
  | .read answers => if client.reading then some (client.readNext serde answers) else none

end LspClient

end Openyak.Lsp
