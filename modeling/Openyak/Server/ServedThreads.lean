/-
# Server.ServedThreads -- every thread of a workspace has a served permission mode

A thread is created with a resolved configuration, which is in one of the three modes of
the protocol, and a row is read back in one of the three.  No other step changes the
configuration of a thread.
-/
import Openyak.Server.ThreadConfig
import Openyak.Server.Workspace

namespace Openyak.Server

open Openyak.Runtime
open Openyak.Theory (Run)

set_option autoImplicit false

def ThreadInner.Served (inner : ThreadInner) : Prop :=
  PermissionMode.Served inner.config.permissionMode

/-- Threads that are all served. -/
def AllServed (threads : ThreadId → Option ThreadInner) : Prop :=
  ∀ id inner, threads id = some inner → inner.Served

theorem allServed_update {threads : ThreadId → Option ThreadInner} (all : AllServed threads)
    {inner : ThreadInner} (served : inner.Served) :
    AllServed (Function.update threads inner.id (some inner)) := by
  intro id found there
  by_cases same : id = inner.id
  · subst same
    rw [Function.update_self] at there
    cases there
    exact served
  · rw [Function.update_of_ne same] at there
    exact all id found there

/-! ## Start-up -/

namespace Loading

variable {columns : Columns} {stored : ThreadId → Bool} {loading loaded : Loading}

theorem countRun_threads (loading : Loading) (runId : Option RunId) :
    (loading.countRun runId).threads = loading.threads := by
  cases runId <;> rfl

theorem row_served {persisted : PersistedThreadRecord}
    (ok : loading.row columns stored persisted = .ok loaded) (all : AllServed loading.threads) :
    AllServed loaded.threads := by
  unfold row at ok
  dsimp only at ok
  cases recovered : threadInnerFromPersisted columns persisted with
  | error error => rw [recovered] at ok; cases ok
  | ok found =>
      obtain ⟨inner, needsRewrite⟩ := found
      rw [recovered] at ok
      obtain ⟨pending, read⟩ := threadInnerFromPersisted_ok recovered
      have served : inner.Served := parseServerPermissionMode_served read.mode
      dsimp only at ok
      split at ok
      · split at ok <;> cases ok
        simp only [insert, countRun_threads]
        exact allServed_update all served
      · cases ok
        simp only [insert, countRun_threads]
        exact allServed_update all served

theorem all_served {rows : List PersistedThreadRecord}
    (ok : loading.all columns stored rows = .ok loaded) (all : AllServed loading.threads) :
    AllServed loaded.threads := by
  induction rows generalizing loading with
  | nil =>
      cases ok
      exact all
  | cons persisted rest ih =>
      unfold Loading.all at ok
      cases first : loading.row columns stored persisted with
      | error rows => rw [first] at ok; cases ok
      | ok next =>
          rw [first] at ok
          exact ih ok (row_served first all)

end Loading

namespace Workspace

/-- Threads are created with resolved configurations. -/
def CreatesResolved (toolRegistry : ToolRegistry)
    (resolveCwd : Option String → Except ApiError String)
    (load : String → Except String RuntimeConfig) (_ : Workspace) : WorkspaceAction → Prop
  | .createThread _ config _ =>
      ∃ payload, resolveThreadConfig toolRegistry resolveCwd load payload = .ok config
  | _ => True

/-- The threads in memory are served. -/
def ThreadsServed (state : Workspace) : Prop :=
  ∀ server, state.memory = some server → AllServed server.threads

section Steps

variable {columns : Columns} {toolRegistry : ToolRegistry}
  {resolveCwd : Option String → Except ApiError String}
  {load : String → Except String RuntimeConfig} {state next : Workspace}
  {action : WorkspaceAction}

theorem threadsServed_of {threads : ThreadId → Option ThreadInner} (all : AllServed threads)
    (held : state.memory.map Server.threads = some threads) : ThreadsServed state := by
  intro other there
  rw [there] at held
  cases held
  exact all

theorem startTurn_served {inner after : ThreadInner} {now : UInt64} {runId : RunId}
    {message : String} (served : inner.Served)
    (admitted : inner.startTurn now runId message = .ok after) : after.Served := by
  obtain ⟨-, -, rfl⟩ := startTurn_ok admitted
  exact served

theorem serve_served {server : Server} (held : state.memory = some server)
    (all : AllServed server.threads)
    (allowed : CreatesResolved toolRegistry resolveCwd load state action)
    (steps : state.serve columns server action = some next) : ThreadsServed next := by
  have same : ThreadsServed state := threadsServed_of all (congrArg (Option.map Server.threads) held)
  cases action with
  | createThread now config stored =>
      obtain ⟨payload, resolved⟩ := allowed
      have served : (ThreadInner.new (threadId server.nextThreadId) now config).Served :=
        (resolveThreadConfig_served resolved).mode
      simp only [serve] at steps
      split at steps <;> cases steps
      · exact threadsServed_of (allServed_update all served) rfl
      · exact threadsServed_of all rfl
  | allocateRunId thread =>
      simp only [serve, Option.map_eq_some_iff] at steps
      obtain ⟨inner, -, rfl⟩ := steps
      exact threadsServed_of all rfl
  | startTurn handler now message stored =>
      simp only [serve, Option.bind_eq_some_iff, Option.map_eq_some_iff] at steps
      obtain ⟨⟨thread, runId⟩, -, inner, there, steps⟩ := steps
      dsimp only at steps
      split at steps
      · subst steps
        exact threadsServed_of all rfl
      · rename_i after admitted
        split at steps <;> subst steps
        · exact threadsServed_of (allServed_update all (startTurn_served (all thread inner there) admitted)) rfl
        · exact threadsServed_of all rfl
  | submitUserInput thread now response stored =>
      simp only [serve, Option.map_eq_some_iff] at steps
      obtain ⟨inner, there, steps⟩ := steps
      split at steps
      · subst steps
        exact same
      · rename_i runId after admitted
        obtain ⟨-, rfl⟩ := submitUserInput_ok admitted
        have served : (inner.beginRun now (ThreadInner.responseMessage response) runId).Served :=
          all thread inner there
        split at steps <;> subst steps
        · exact threadsServed_of (allServed_update all served) rfl
        · exact same
  | appendSessionMessage thread now message stored =>
      simp only [serve, Option.map_eq_some_iff] at steps
      obtain ⟨inner, there, steps⟩ := steps
      split at steps
      · subst steps
        exact same
      · rename_i after appended
        obtain ⟨-, rfl⟩ := appendSessionMessage_ok appended
        have served : ThreadInner.Served
            { inner with session := inner.session.push message, updatedAt := now } :=
          all thread inner there
        split at steps <;> subst steps
        · exact threadsServed_of (allServed_update all served) rfl
        · exact same
  | completeRun worker now finalSession stored =>
      simp only [serve, Option.bind_eq_some_iff, Option.map_eq_some_iff] at steps
      obtain ⟨⟨thread, runId⟩, -, inner, there, rfl⟩ := steps
      have served : (inner.completeRun now runId finalSession).Served := all thread inner there
      exact threadsServed_of (allServed_update all served) rfl
  | emitProtocolEvent thread =>
      simp only [serve, Option.map_eq_some_iff] at steps
      obtain ⟨inner, there, rfl⟩ := steps
      have served : inner.nextSequence.Served := all thread inner there
      exact threadsServed_of (allServed_update all served) rfl
  | stop =>
      cases steps
      intro _ none_
      cases none_
  | loadForCwd stored => cases steps

theorem step_served (served : ThreadsServed state)
    (allowed : CreatesResolved toolRegistry resolveCwd load state action)
    (steps : step columns state action = some next) : ThreadsServed next := by
  unfold step at steps
  split at steps
  · rename_i server held
    exact serve_served held (served server held) allowed steps
  · rename_i stored _
    cases steps
    unfold loadForCwd
    split
    · exact served
    · rename_i loaded ok
      have noThreads : AllServed fun _ => none := by
        intro _ _ there
        cases there
      exact threadsServed_of (Loading.all_served ok noThreads) rfl
  · cases steps

end Steps

/-- A record in the memory of a server, at some time of some run of its workspace. -/
def Reachable (columns : Columns) (toolRegistry : ToolRegistry)
    (resolveCwd : Option String → Except ApiError String)
    (load : String → Except String RuntimeConfig) (inner : ThreadInner) : Prop :=
  ∃ rows actions last server id,
    Run (step columns) (CreatesResolved toolRegistry resolveCwd load) (start rows) actions last ∧
      last.memory = some server ∧ server.threads id = some inner

/-- **The mode of every reachable thread is one the protocol has a name for.** -/
theorem Reachable.served {columns : Columns} {toolRegistry : ToolRegistry}
    {resolveCwd : Option String → Except ApiError String}
    {load : String → Except String RuntimeConfig} {inner : ThreadInner}
    (reachable : Reachable columns toolRegistry resolveCwd load inner) : inner.Served := by
  obtain ⟨rows, actions, last, server, id, run, held, there⟩ := reachable
  have served : ThreadsServed last :=
    run.invariant ThreadsServed (fun _ _ _ served allowed steps => step_served served allowed steps)
      nofun
  exact served server held id inner there

end Workspace

end Openyak.Server
