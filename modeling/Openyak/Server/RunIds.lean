/-
# Server.RunIds -- a run id is new, as long as some row remembers the runs

`allocate_run_id` counts in memory; at a restart the count is the greatest number
that the rows name.  A row names the run of its thread's status only, and an idle
thread has none, so the runs that are over are forgotten with the stop that
follows.

Under `RunsRemembered` every accepted turn has an id of its own, in every run of
the workspace.
-/
import Openyak.Server.Workspace
import Mathlib.Data.List.Perm.Basic

namespace Openyak.Server

open Openyak.Runtime
open Openyak.Theory (Run play)

set_option autoImplicit false

/-! ## Start-up counts every row -/

namespace Loading

section Counts

variable {columns : Columns} {stored : ThreadId → Bool}

theorem countRun_grows (loading : Loading) (runId : Option RunId) :
    loading.maxRunId ≤ (loading.countRun runId).maxRunId := by
  cases runId with
  | none => exact UInt64.le_refl _
  | some runId => exact le_larger_left _ _

theorem countRun_counts (loading : Loading) (runId : RunId) :
    idCounter "run-" runId ≤ (loading.countRun (some runId)).maxRunId :=
  le_larger_right _ _

theorem row_ok {loading loaded : Loading} {persisted : PersistedThreadRecord}
    (ok : loading.row columns stored persisted = .ok loaded) :
    loading.maxRunId ≤ loaded.maxRunId ∧
      ∀ last, persisted.lastRunId = some last → idCounter "run-" last ≤ loaded.maxRunId := by
  unfold row at ok
  dsimp only at ok
  generalize seen : ({ loading with
    maxThreadId := larger loading.maxThreadId (idCounter "thread-" persisted.threadId) } :
      Loading) = counted at ok
  have started : loading.maxRunId = counted.maxRunId := by rw [← seen]
  cases recovered : threadInnerFromPersisted columns persisted with
  | error error => rw [recovered] at ok; cases ok
  | ok found =>
      obtain ⟨inner, needsRewrite⟩ := found
      rw [recovered] at ok
      have reached : loaded.maxRunId =
          ((counted.countRun persisted.lastRunId).countRun inner.status.runId).maxRunId := by
        dsimp only at ok
        split at ok
        · split at ok <;> cases ok
          rfl
        · cases ok
          rfl
      have grows := countRun_grows (counted.countRun persisted.lastRunId) inner.status.runId
      rw [reached]
      refine ⟨?_, fun last held => ?_⟩
      · rw [started]
        exact UInt64.le_trans (countRun_grows _ _) grows
      · rw [held] at grows ⊢
        exact UInt64.le_trans (countRun_counts _ _) grows

/-- The count of a finished start-up is at least that of every row. -/
theorem all_ok {loading loaded : Loading} {rows : List PersistedThreadRecord}
    (ok : loading.all columns stored rows = .ok loaded) :
    loading.maxRunId ≤ loaded.maxRunId ∧
      ∀ row ∈ rows, ∀ last, row.lastRunId = some last →
        idCounter "run-" last ≤ loaded.maxRunId := by
  induction rows generalizing loading with
  | nil =>
      cases ok
      exact ⟨UInt64.le_refl _, List.forall_mem_nil _⟩
  | cons persisted rest ih =>
      unfold all at ok
      cases first : loading.row columns stored persisted with
      | error rows => rw [first] at ok; cases ok
      | ok next =>
          rw [first] at ok
          obtain ⟨grows, counts⟩ := ih ok
          obtain ⟨grew, counted⟩ := row_ok first
          refine ⟨UInt64.le_trans grew grows, fun row member last held => ?_⟩
          rcases List.mem_cons.1 member with rfl | later
          · exact UInt64.le_trans (counted last held) grows
          · exact counts row later last held

end Counts

end Loading

namespace Workspace

/-! ## The condition -/

/-- When the server comes up, some row names a run at least as late as each accepted
one; and ids are allocated below the greatest `u64`. -/
def RunsRemembered (state : Workspace) : WorkspaceAction → Prop
  | .loadForCwd _ => ∀ id ∈ state.accepted, ∃ row ∈ state.rows, ∃ last,
      row.lastRunId = some last ∧ idCounter "run-" id ≤ idCounter "run-" last
  | .allocateRunId _ => ∀ server, state.memory = some server →
      server.nextRunId < 18446744073709551615
  | _ => True

/-! ## What a step can do -/

section Steps

variable {columns : Columns} {state next : Workspace} {action : WorkspaceAction}

/-- The five things a step can do to the ids. -/
inductive Issuing (columns : Columns) (state : Workspace) (action : WorkspaceAction) :
    Workspace → Prop
  | keeps (server after : Server) (rows : List PersistedThreadRecord)
      (running : state.memory = some server) (same : after.nextRunId = server.nextRunId)
      (fewer : after.handlers.Sublist server.handlers) :
      Issuing columns state action { state with memory := some after, rows := rows }
  | allocates (server : Server) (thread : ThreadId) (running : state.memory = some server)
      (allocates : action = .allocateRunId thread) :
      Issuing columns state action
        { state with
          memory := some { server with
            nextRunId := server.nextRunId + 1
            handlers := server.handlers ++ [(thread, runId server.nextRunId)] } }
  | accepts (server after : Server) (rows : List PersistedThreadRecord) (handler : Nat)
      (thread : ThreadId) (runId : RunId) (running : state.memory = some server)
      (same : after.nextRunId = server.nextRunId)
      (held : server.handlers[handler]? = some (thread, runId))
      (rest : after.handlers = server.handlers.eraseIdx handler) :
      Issuing columns state action
        { memory := some after, rows := rows, accepted := state.accepted ++ [runId] }
  | stops (stops : action = .stop) : Issuing columns state action { state with memory := none }
  | loads (stored : ThreadId → Bool) (stopped : state.memory = none)
      (loads : action = .loadForCwd stored) :
      Issuing columns state action (state.loadForCwd columns stored)

/-- A section on a record, whether its row is written or not. -/
theorem issuing_put {server after : Server} (running : state.memory = some server)
    (same : after.nextRunId = server.nextRunId)
    (fewer : after.handlers.Sublist server.handlers) (inner : ThreadInner) (stored : Bool) :
    Issuing columns state action (state.put columns after inner stored) :=
  .keeps server _ _ running same fewer

theorem issuing_same {server : Server} (running : state.memory = some server) :
    Issuing columns state action state := by
  have keeps : Issuing columns state action
      { state with memory := some server, rows := state.rows } :=
    .keeps server server state.rows running rfl (List.Sublist.refl _)
  rwa [← running] at keeps

theorem serve_issuing {server : Server} (running : state.memory = some server)
    (steps : state.serve columns server action = some next) :
    Issuing columns state action next := by
  cases action with
  | createThread now config stored =>
      simp only [serve] at steps
      split at steps <;> cases steps
      · refine issuing_put running ?_ ?_ _ _
        exacts [rfl, List.Sublist.refl _]
      · exact .keeps server _ _ running rfl (List.Sublist.refl _)
  | allocateRunId thread =>
      simp only [serve, Option.map_eq_some_iff] at steps
      obtain ⟨inner, -, rfl⟩ := steps
      exact .allocates server thread running rfl
  | startTurn handler now message stored =>
      simp only [serve, Option.bind_eq_some_iff, Option.map_eq_some_iff] at steps
      obtain ⟨⟨thread, runId⟩, held, inner, -, steps⟩ := steps
      have refused : Issuing columns state (.startTurn handler now message stored)
          { state with
            memory := some { server with handlers := server.handlers.eraseIdx handler } } :=
        .keeps server _ _ running rfl (List.eraseIdx_sublist _ _)
      cases admitted : inner.startTurn now runId message with
      | error refusal =>
          rw [admitted] at steps
          subst steps
          exact refused
      | ok after =>
          rw [admitted] at steps
          cases stored with
          | false =>
              subst steps
              exact refused
          | true =>
              subst steps
              exact .accepts server _ _ handler thread runId running rfl held rfl
  | submitUserInput thread now response stored =>
      simp only [serve, Option.map_eq_some_iff] at steps
      obtain ⟨inner, -, steps⟩ := steps
      cases admitted : inner.submitUserInput now response with
      | error refusal =>
          rw [admitted] at steps
          subst steps
          exact issuing_same running
      | ok reply =>
          obtain ⟨runId, after⟩ := reply
          rw [admitted] at steps
          cases stored with
          | false =>
              subst steps
              exact issuing_same running
          | true =>
              subst steps
              refine issuing_put running ?_ ?_ _ _
              exacts [rfl, List.Sublist.refl _]
  | appendSessionMessage thread now message stored =>
      simp only [serve, Option.map_eq_some_iff] at steps
      obtain ⟨inner, -, steps⟩ := steps
      cases appended : inner.appendSessionMessage now message with
      | error refusal =>
          rw [appended] at steps
          subst steps
          exact issuing_same running
      | ok after =>
          rw [appended] at steps
          cases stored with
          | false =>
              subst steps
              exact issuing_same running
          | true =>
              subst steps
              exact issuing_put running rfl (List.Sublist.refl _) _ _
  | completeRun worker now finalSession stored =>
      simp only [serve, Option.bind_eq_some_iff, Option.map_eq_some_iff] at steps
      obtain ⟨⟨thread, runId⟩, -, inner, -, rfl⟩ := steps
      refine issuing_put running ?_ ?_ _ _
      exacts [rfl, List.Sublist.refl _]
  | emitProtocolEvent thread =>
      simp only [serve, Option.map_eq_some_iff] at steps
      obtain ⟨inner, -, rfl⟩ := steps
      exact issuing_put running rfl (List.Sublist.refl _) _ _
  | stop =>
      cases steps
      exact .stops rfl
  | loadForCwd stored => cases steps

theorem step_issuing (steps : step columns state action = some next) :
    Issuing columns state action next := by
  unfold step at steps
  split at steps
  · rename_i server running
    exact serve_issuing running steps
  · rename_i stored stopped
    cases steps
    exact .loads stored stopped rfl
  · cases steps

end Steps

/-! ## Ids are new -/

/-- Every id in use was made from a number below the allocator's, and no two are the
same: those of accepted turns and those of the requests in flight. -/
structure Issued (state : Workspace) : Prop where
  distinct : state.accepted.Nodup
  numbered : ∀ id ∈ state.accepted, ∃ counter : UInt64,
    counter < 18446744073709551615 ∧ id = runId counter
  running : ∀ server, state.memory = some server →
    (server.handlers.map Prod.snd ++ state.accepted).Nodup ∧
      ∀ id ∈ server.handlers.map Prod.snd ++ state.accepted, ∃ counter : UInt64,
        counter < 18446744073709551615 ∧ id = runId counter ∧ counter < server.nextRunId

theorem lt_saturatingSucc {counter bound : UInt64} (below : counter ≤ bound)
    (notMax : counter < 18446744073709551615) : counter < saturatingSucc bound := by
  by_cases top : bound < 18446744073709551615
  · exact UInt64.lt_of_le_of_lt below (saturatingSucc_of_lt top)
  · have isMax : bound = 18446744073709551615 := by
      apply UInt64.toNat_inj.1
      have fits := bound.toNat_lt
      rw [UInt64.lt_iff_toNat_lt] at top
      have value : (18446744073709551615 : UInt64).toNat = 18446744073709551615 := rfl
      omega
    rw [isMax]
    exact notMax

theorem lt_succ_of_lt {counter bound : UInt64} (notMax : bound < 18446744073709551615)
    (below : counter ≤ bound) : counter < bound + 1 := by
  rw [UInt64.lt_iff_toNat_lt] at notMax ⊢
  rw [UInt64.le_iff_toNat_le] at below
  rw [UInt64.toNat_add]
  have one : (1 : UInt64).toNat = 1 := rfl
  have value : (18446744073709551615 : UInt64).toNat = 18446744073709551615 := rfl
  omega

/-- The id of an accepted turn goes from the requests to the history. -/
theorem eraseIdx_ids_perm {handlers : List (ThreadId × RunId)} {handler : Nat} {thread : ThreadId}
    {runId : RunId} (held : handlers[handler]? = some (thread, runId)) (accepted : List RunId) :
    ((handlers.eraseIdx handler).map Prod.snd ++ (accepted ++ [runId])).Perm
      (handlers.map Prod.snd ++ accepted) := by
  obtain ⟨inside, isHeld⟩ := List.getElem?_eq_some_iff.1 held
  have front : ((thread, runId) :: handlers.eraseIdx handler).Perm handlers :=
    isHeld ▸ List.getElem_cons_eraseIdx_perm inside
  calc (handlers.eraseIdx handler).map Prod.snd ++ (accepted ++ [runId])
      = ((handlers.eraseIdx handler).map Prod.snd ++ accepted) ++ [runId] :=
        (List.append_assoc _ _ _).symm
    _ |>.Perm (runId :: ((handlers.eraseIdx handler).map Prod.snd ++ accepted)) :=
        List.perm_append_singleton _ _
    _ |>.Perm (handlers.map Prod.snd ++ accepted) :=
        (front.map Prod.snd).append_right accepted

/-- **One step under the condition** keeps the invariant. -/
theorem issued_step {columns : Columns} {state next : Workspace} {action : WorkspaceAction}
    (issued : Issued state) (remembered : RunsRemembered state action)
    (steps : step columns state action = some next) : Issued next := by
  cases step_issuing steps with
  | keeps server after rows running same fewer =>
      obtain ⟨distinct, numbered⟩ := issued.running server running
      have fewerIds : (after.handlers.map Prod.snd ++ state.accepted).Sublist
          (server.handlers.map Prod.snd ++ state.accepted) :=
        (fewer.map Prod.snd).append (List.Sublist.refl _)
      refine ⟨issued.distinct, issued.numbered, fun held isHeld => ?_⟩
      cases isHeld
      refine ⟨distinct.sublist fewerIds, fun id member => ?_⟩
      obtain ⟨counter, small, made, below⟩ := numbered id (fewerIds.subset member)
      exact ⟨counter, small, made, same ▸ below⟩
  | allocates server thread running isAllocate =>
      subst isAllocate
      obtain ⟨distinct, numbered⟩ := issued.running server running
      have notMax := remembered server running
      have fresh : runId server.nextRunId ∉ server.handlers.map Prod.snd ++ state.accepted := by
        intro member
        obtain ⟨counter, -, made, below⟩ := numbered _ member
        rw [runId_injective made] at below
        exact UInt64.lt_irrefl _ below
      have rearranged : ((server.handlers ++ [(thread, runId server.nextRunId)]).map Prod.snd ++
          state.accepted).Perm
            (runId server.nextRunId :: (server.handlers.map Prod.snd ++ state.accepted)) := by
        rw [List.map_append, List.append_assoc]
        exact List.perm_middle
      refine ⟨issued.distinct, issued.numbered, fun held isHeld => ?_⟩
      cases isHeld
      refine ⟨rearranged.nodup_iff.2 (List.nodup_cons.2 ⟨fresh, distinct⟩), fun id member => ?_⟩
      rcases List.mem_cons.1 (rearranged.mem_iff.1 member) with rfl | earlier
      · exact ⟨server.nextRunId, notMax, rfl, lt_succ_of_lt notMax (UInt64.le_refl _)⟩
      · obtain ⟨counter, small, made, below⟩ := numbered id earlier
        exact ⟨counter, small, made, lt_succ_of_lt notMax (UInt64.le_of_lt below)⟩
  | accepts server after rows handler thread runId running same held rest =>
      obtain ⟨distinct, numbered⟩ := issued.running server running
      have rearranged : (after.handlers.map Prod.snd ++ (state.accepted ++ [runId])).Perm
          (server.handlers.map Prod.snd ++ state.accepted) := by
        rw [rest]
        exact eraseIdx_ids_perm held state.accepted
      have nodup := rearranged.nodup_iff.2 distinct
      have counters := fun id member => numbered id (rearranged.mem_iff.1 member)
      refine ⟨(List.nodup_append.1 nodup).2.1, fun id member => ?_, fun held isHeld => ?_⟩
      · obtain ⟨counter, small, made, -⟩ := counters id (List.mem_append_right _ member)
        exact ⟨counter, small, made⟩
      · cases isHeld
        refine ⟨nodup, fun id member => ?_⟩
        obtain ⟨counter, small, made, below⟩ := counters id member
        exact ⟨counter, small, made, same ▸ below⟩
  | stops isStop => exact ⟨issued.distinct, issued.numbered, nofun⟩
  | loads stored stopped isLoad =>
      subst isLoad
      unfold loadForCwd
      split
      · refine ⟨issued.distinct, issued.numbered, fun server running => ?_⟩
        rw [stopped] at running
        cases running
      · rename_i loaded finished
        refine ⟨issued.distinct, issued.numbered, fun server running => ?_⟩
        cases running
        refine ⟨issued.distinct, fun id member => ?_⟩
        obtain ⟨counter, small, rfl⟩ := issued.numbered id member
        obtain ⟨row, isRow, last, named, below⟩ := remembered _ member
        rw [idCounter_runId] at below
        have counted := (Loading.all_ok finished).2 row isRow last named
        exact ⟨counter, small, rfl,
          lt_saturatingSucc (UInt64.le_trans below counted) small⟩

theorem issued_start (rows : List PersistedThreadRecord) : Issued (start rows) where
  distinct := List.nodup_nil
  numbered := nofun
  running := nofun

/-- **Every accepted turn has an id of its own, as long as the runs are remembered**:
from any table, in every run under the condition, no two accepted turns have the
same run id, before or after a restart. -/
theorem runIds_distinct (columns : Columns) (rows : List PersistedThreadRecord)
    (actions : List WorkspaceAction) (last : Workspace)
    (run : Run (step columns) RunsRemembered (start rows) actions last) :
    last.accepted.Nodup :=
  (run.invariant Issued (fun _ _ _ => issued_step) (issued_start rows)).distinct

/-! ## Two histories of one workspace -/

/-- A turn runs to its end, the server stops, and the thread's next turn. -/
def stopAfterRun : List WorkspaceAction :=
  [.loadForCwd fun _ => true, .createThread 0 smallConfig true, .allocateRunId "thread-1",
    .startTurn 0 1 "go" true, .completeRun 0 2 goSession true, .stop,
    .loadForCwd fun _ => true, .allocateRunId "thread-1", .startTurn 0 3 "go" true]

theorem stopAfterRun_reuses :
    ∃ last, play (step smallColumns) (start []) stopAfterRun = some last ∧
      last.accepted = ["run-1", "run-1"] :=
  ⟨_, rfl, rfl⟩

/-- The same with the stop before the run is over: the row still names it. -/
def stopDuringRun : List WorkspaceAction :=
  [.loadForCwd fun _ => true, .createThread 0 smallConfig true, .allocateRunId "thread-1",
    .startTurn 0 1 "go" true, .stop, .loadForCwd fun _ => true, .allocateRunId "thread-1",
    .startTurn 0 3 "go" true]

theorem runIds_distinct_stopDuringRun :
    ∃ last, play (step smallColumns) (start []) stopDuringRun = some last ∧
      last.accepted = ["run-1", "run-2"] ∧ last.accepted.Nodup := by
  refine ⟨_, rfl, rfl, ?_⟩
  refine runIds_distinct smallColumns [] stopDuringRun _
    (.cons nofun rfl (.cons trivial rfl (.cons ?_ rfl (.cons trivial rfl (.cons trivial rfl
      (.cons ?_ rfl (.cons ?_ rfl (.cons trivial rfl .nil))))))))
  · rintro server ⟨⟩
    decide
  · intro id member
    refine ⟨_, List.mem_singleton_self _, "run-1", rfl, ?_⟩
    obtain rfl : id = "run-1" := List.mem_singleton.1 (show id ∈ ["run-1"] from member)
    decide
  · rintro server ⟨⟩
    decide

end Workspace

end Openyak.Server
