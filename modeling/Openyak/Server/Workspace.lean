/-
# Server.Workspace -- every thread of a workspace, over stops and restarts

The server of one workspace: the thread records, the two id allocators, the
requests that hold a run id but are not admitted yet, and the workers.  All of it
is lost at a stop; the table of rows is not.  `loadForCwd` rebuilds records and
allocators from the rows, one after another, and gives up at the first that it
cannot read or write again.

`accepted` is the history: the run ids of the turns that were accepted.
-/
import Openyak.Server.Persistence
import Openyak.Theory.Decimal
import Openyak.Theory.Run
import Mathlib.Logic.Function.Basic

namespace Openyak.Server

open Openyak.Runtime
open Openyak.Theory

set_option autoImplicit false

/-! ## Ids and counters -/

def threadId (counter : UInt64) : ThreadId := "thread-" ++ Decimal.format counter

def runId (counter : UInt64) : RunId := "run-" ++ Decimal.format counter

/-- The number after the prefix, and 0 for an id of another form. -/
def idCounter (start id : String) : UInt64 :=
  ((Text.stripPrefix start id.toList).bind Decimal.parseU64).getD 0

/-- `u64::max`. -/
def larger (a b : UInt64) : UInt64 := if a ≤ b then b else a

theorem le_larger_left (a b : UInt64) : a ≤ larger a b := by
  unfold larger
  split
  · assumption
  · exact UInt64.le_refl a

theorem le_larger_right (a b : UInt64) : b ≤ larger a b := by
  unfold larger
  split
  · exact UInt64.le_refl b
  · rename_i above
    exact UInt64.le_of_lt (UInt64.not_le.1 above)

/-- The counter of an allocated id is the number it was made from. -/
theorem idCounter_runId (counter : UInt64) : idCounter "run-" (runId counter) = counter := by
  rw [idCounter, runId, String.toList_append, Text.stripPrefix_append, Option.bind_some,
    Decimal.parseU64_format, Option.getD_some]

theorem runId_injective {a b : UInt64} (same : runId a = runId b) : a = b := by
  rw [← idCounter_runId a, same, idCounter_runId]

/-! ## The table -/

/-- `upsert_thread`, on rows in the order of their ids. -/
def upsertThread (record : PersistedThreadRecord) :
    List PersistedThreadRecord → List PersistedThreadRecord
  | [] => [record]
  | row :: rest =>
      if row.threadId = record.threadId then record :: rest
      else if record.threadId < row.threadId then record :: row :: rest
      else row :: upsertThread record rest

/-! ## Start-up -/

/-- What the loop of `load_for_cwd` has built from the rows it has seen. -/
structure Loading where
  rows : List PersistedThreadRecord
  threads : ThreadId → Option ThreadInner := fun _ => none
  maxThreadId : UInt64 := 0
  maxRunId : UInt64 := 0

namespace Loading

def countRun (loading : Loading) (runId : Option RunId) : Loading :=
  match runId with
  | some runId => { loading with maxRunId := larger loading.maxRunId (idCounter "run-" runId) }
  | none => loading

def insert (loading : Loading) (inner : ThreadInner) : Loading :=
  { loading with threads := Function.update loading.threads inner.id (some inner) }

/-- One row.  A failure leaves the table as it is by then. -/
def row (columns : Columns) (stored : ThreadId → Bool) (loading : Loading)
    (persisted : PersistedThreadRecord) : Except (List PersistedThreadRecord) Loading :=
  let counted :=
    { loading with
      maxThreadId := larger loading.maxThreadId (idCounter "thread-" persisted.threadId) }
  let counted := counted.countRun persisted.lastRunId
  match threadInnerFromPersisted columns persisted with
  | .error _ => .error loading.rows
  | .ok (inner, needsRewrite) =>
      let counted := counted.countRun inner.status.runId
      if needsRewrite then
        if stored persisted.threadId then
          .ok { counted.insert inner with
            rows := upsertThread (persistedThreadFromInner columns inner) loading.rows }
        else .error loading.rows
      else .ok (counted.insert inner)

def all (columns : Columns) (stored : ThreadId → Bool) (loading : Loading) :
    List PersistedThreadRecord → Except (List PersistedThreadRecord) Loading
  | [] => .ok loading
  | persisted :: rest =>
      match loading.row columns stored persisted with
      | .error rows => .error rows
      | .ok loaded => loaded.all columns stored rest

end Loading

/-! ## The system -/

/-- The memory of a running server.  `handlers` are the turn requests that hold a run
id, `workers` the runs that were started. -/
structure Server where
  threads : ThreadId → Option ThreadInner
  nextThreadId : UInt64
  nextRunId : UInt64
  handlers : List (ThreadId × RunId) := []
  workers : List (ThreadId × RunId) := []

structure Workspace where
  memory : Option Server
  rows : List PersistedThreadRecord
  accepted : List RunId := []

/-- `stored` says whether a row could be written, at a restart for each thread. -/
inductive WorkspaceAction where
  | createThread (now : UInt64) (config : ThreadExecutionConfig) (stored : Bool)
  | allocateRunId (thread : ThreadId)
  | startTurn (handler : Nat) (now : UInt64) (message : String) (stored : Bool)
  | submitUserInput (thread : ThreadId) (now : UInt64) (response : UserInputResponse)
      (stored : Bool)
  | appendSessionMessage (thread : ThreadId) (now : UInt64) (message : ConversationMessage)
      (stored : Bool)
  | completeRun (worker : Nat) (now : UInt64) (finalSession : Session) (stored : Bool)
  | emitProtocolEvent (thread : ThreadId)
  | stop
  | loadForCwd (stored : ThreadId → Bool)

namespace Workspace

variable (columns : Columns)

/-- A record is put in memory, and its row written or not. -/
def put (state : Workspace) (server : Server) (inner : ThreadInner) (stored : Bool) : Workspace :=
  { state with
    memory := some { server with threads := Function.update server.threads inner.id (some inner) }
    rows :=
      if stored then upsertThread (persistedThreadFromInner columns inner) state.rows
      else state.rows }

def start (rows : List PersistedThreadRecord) : Workspace := { memory := none, rows := rows }

def loadForCwd (state : Workspace) (stored : ThreadId → Bool) : Workspace :=
  match Loading.all columns stored { rows := state.rows } state.rows with
  | .error rows => { state with rows := rows }
  | .ok loaded =>
      { state with
        memory := some
          { threads := loaded.threads
            nextThreadId := saturatingSucc loaded.maxThreadId
            nextRunId := saturatingSucc loaded.maxRunId }
        rows := loaded.rows }

/-- A handler or a worker is a step of the running server. -/
def serve (state : Workspace) (server : Server) : WorkspaceAction → Option Workspace
  | .createThread now config stored =>
      let allocated := { server with nextThreadId := server.nextThreadId + 1 }
      if stored then
        some (state.put columns allocated
          (ThreadInner.new (threadId server.nextThreadId) now config) true)
      else some { state with memory := some allocated }
  | .allocateRunId thread =>
      (server.threads thread).map fun _ =>
        { state with
          memory := some { server with
            nextRunId := server.nextRunId + 1
            handlers := server.handlers ++ [(thread, runId server.nextRunId)] } }
  | .startTurn handler now message stored =>
      (server.handlers[handler]?).bind fun (thread, runId) =>
        (server.threads thread).map fun inner =>
          let answered := { server with handlers := server.handlers.eraseIdx handler }
          match inner.startTurn now runId message with
          | .error _ => { state with memory := some answered }
          | .ok next =>
              if stored then
                let started := { answered with workers := server.workers ++ [(thread, runId)] }
                { state.put columns started next true with
                  accepted := state.accepted ++ [runId] }
              else { state with memory := some answered }
  | .submitUserInput thread now response stored =>
      (server.threads thread).map fun inner =>
        match inner.submitUserInput now response with
        | .error _ => state
        | .ok (runId, next) =>
            if stored then
              state.put columns { server with workers := server.workers ++ [(thread, runId)] }
                next true
            else state
  | .appendSessionMessage thread now message stored =>
      (server.threads thread).map fun inner =>
        match inner.appendSessionMessage now message with
        | .error _ => state
        | .ok next => if stored then state.put columns server next true else state
  | .completeRun worker now finalSession stored =>
      (server.workers[worker]?).bind fun (thread, runId) =>
        (server.threads thread).map fun inner =>
          state.put columns { server with workers := server.workers.eraseIdx worker }
            (inner.completeRun now runId finalSession) stored
  | .emitProtocolEvent thread =>
      (server.threads thread).map fun inner =>
        state.put columns server inner.nextSequence false
  | .stop => some { state with memory := none }
  | .loadForCwd _ => none

def step (state : Workspace) (action : WorkspaceAction) : Option Workspace :=
  match state.memory, action with
  | some server, action => state.serve columns server action
  | none, .loadForCwd stored => some (state.loadForCwd columns stored)
  | none, _ => none

end Workspace

end Openyak.Server
