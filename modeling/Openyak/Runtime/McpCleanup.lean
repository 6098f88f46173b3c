/-
# Runtime.McpCleanup -- which servers a bridged tool call leaves running

A bridged call starts every server for its discovery and shuts all of them down behind the
call.  A discovery that fails returns before the shutdown, so the servers it had started stay
(`discoverTools_failed_iff`), and the shutdown stops at the first server that cannot be killed,
so the servers behind that one stay (`shutdownFrom_leaves_iff`).
-/
import Openyak.Runtime.McpRouting

namespace Openyak.Runtime.Mcp

open Openyak.Theory Openyak.Theory.ByteStream

set_option autoImplicit false

/-- A server as it was configured: without a process, and not initialized. -/
def World.Idle (world : World) (name : String) : Prop := world.manager.servers name = some {}

/-- A child is found to have exited, or is killed, and is waited for. -/
def Turn.Stops (turn : Turn) : Prop :=
  (turn.exited = .ok true ∨ turn.exited = .ok false ∧ turn.killError = none) ∧ turn.waitError = none

/-- The shutdown of these servers reaches this one, and its own process cannot be stopped. -/
def StopFails (environment : Nat → Turn) (name : String) : List String → World → Prop
  | [], _ => False
  | first :: rest, world =>
      match world.manager.servers first with
      | none => False
      | some server =>
          match shutdownServer environment first server world with
          | (.error _, _) => name = first
          | (.ok _, after) => StopFails environment name rest (after.setServer first {})

section Call

variable (serde : McpSerde) (environment : Nat → Turn)
  (toValue : McpToolCallResult → Except String Json) (pages : Nat) (qualifiedToolName : String)
  (arguments : Option Json) (world : World)

/-- The discovery has turns for all the pages it asks for. -/
def Returns : Prop := ∀ after, discoverTools serde environment pages world ≠ (.error .listing, after)

/-- The call tried to shut the server down and failed over its process. -/
def OwnStopFailed (name : String) : Prop :=
  ∃ tools found, discoverTools serde environment pages world = (.ok tools, found) ∧
    let start := (callTool serde environment qualifiedToolName arguments found).2
    StopFails environment name start.manager.names start

/-- A call that returns leaves every server idle but one that could not be stopped, so that the
next use of the server spawns and initializes it. -/
def LeavesNoServer : Prop :=
  Returns serde environment pages world →
    let after := (spawnToolCall serde environment toValue pages qualifiedToolName arguments world).2
    ∀ name ∈ world.manager.names,
      OwnStopFailed serde environment pages qualifiedToolName arguments world name ∨
        after.Idle name ∧ ensureServerReady serde environment name after =
          (spawnServer environment name >>= fun _ => initializeServer serde environment name) after

/-- The call gets to its end: the discovery succeeds and no server but the last cannot be
stopped; or nothing was begun, for the first server was not spawned and none was running. -/
def CleansUp : Prop :=
  match discoverTools serde environment pages world with
  | (.error .listing, _) => True
  | (.error (.failed _), _) => (∀ name ∈ world.manager.names, world.Idle name) ∧
      (environment world.clock).spawnError.isSome = true
  | (.ok _, found) =>
      let start := (callTool serde environment qualifiedToolName arguments found).2
      ∀ i, i + 1 < start.manager.names.length → (environment (start.clock + i)).Stops

end Call

/-! ## What the call leaves -/

section Operations

variable {serde : McpSerde} {environment : Nat → Turn} {world after : World} {name : String}

theorem World.Started.not_idle (started : world.Started name) : ¬world.Idle name := by
  obtain ⟨server, found, isSome⟩ := started
  intro idle
  rw [World.Idle, found] at idle
  cases idle
  cases isSome

theorem ensureServerReady_idle (idle : world.Idle name) :
    ensureServerReady serde environment name world =
      (spawnServer environment name >>= fun _ => initializeServer serde environment name) world := by
  have looked : serverMut name world = (.ok {}, world) := by
    rw [serverMut_apply, show world.manager.servers name = some {} from idle]
  rw [ensureServerReady, Action.bind_ok looked]
  show (spawnServer environment name >>= _) world = _
  cases spawned : spawnServer environment name world with
  | mk result middle =>
      cases result with
      | error error => rw [Action.bind_error spawned, Action.bind_error spawned]
      | ok done =>
          rw [Action.bind_ok spawned, Action.bind_ok spawned]
          have fresh : middle.manager.servers name = some { process := some {} } := by
            obtain ⟨turn, turned, turns, rest⟩ := Action.of_bind_ok spawned
            cases fails : turn.spawnError with
            | some error =>
                rw [fails] at rest
                cases rest
            | none =>
                rw [fails] at rest
                cases rest
                exact Function.update_self ..
          have again : serverMut name middle = (.ok { process := some {} }, middle) := by
            rw [serverMut_apply, fresh]
          rw [Action.bind_ok again]
          rfl

/-- Servers that are started stay started, up to the shutdown. -/
theorem started_kept (serde : McpSerde) (environment : Nat → Turn) (name : String) :
    Kept serde environment (fun _ => True) (fun world => world.Started name) fun _ => True where
  initializes := trivial
  requestId _ started := started
  turn started := started
  accept started _ := started
  request spoke reads started isThere isProcess := by
    rename_i before other server process id method params
    refine ⟨?_, fun _ _ => trivial⟩
    obtain ⟨-, -, -, same | ⟨later, updated⟩⟩ := request_world other server process
      (JsonRpcRequest.new id method (some params)) before
    · obtain ⟨standing, found, isSome⟩ := started
      exact ⟨standing, by rw [same, found], isSome⟩
    · by_cases isName : name = other
      · subst isName
        exact ⟨_, by rw [updated, Function.update_self], rfl⟩
      · obtain ⟨standing, found, isSome⟩ := started
        exact ⟨standing, by rw [updated, Function.update_of_ne isName, found], isSome⟩
  spawn started isThere absent := by
    rename_i before other server
    by_cases isName : name = other
    · subst isName
      exact ⟨_, Function.update_self .., rfl⟩
    · obtain ⟨standing, found, isSome⟩ := started
      exact ⟨standing, (Function.update_of_ne isName ..).trans found, isSome⟩
  ready started isThere := by
    rename_i before other server
    obtain ⟨standing, found, isSome⟩ := started
    by_cases isName : name = other
    · subst isName
      rw [isThere] at found
      cases found
      exact ⟨_, Function.update_self .., isSome⟩
    · exact ⟨standing, (Function.update_of_ne isName ..).trans found, isSome⟩

theorem discoverFrom_started (pages : Nat) (names : List String) (discovered : List ManagedMcpTool) :
    Action.Keeps (fun world => world.Started name)
      (discoverFrom serde environment pages names discovered) := by
  refine discoverFrom_keepsFor (started_kept serde environment name) (fun _ => trivial) pages ?_ ?_
    discovered
  · exact fun _ _ started => started
  · exact fun _ _ _ started => started

/-- The manager has these servers, each in some state. -/
structure Managed (names : List String) (world : World) : Prop where
  keys : world.manager.names = names
  standing : ∀ name ∈ names, ∃ server, world.manager.servers name = some server

theorem Managed.setServer {names : List String} {later : World} (managed : Managed names world)
    {server : ManagedMcpServer} (keys : later.manager.names = world.manager.names)
    (servers : later.manager.servers = Function.update world.manager.servers name (some server)) :
    Managed names later := by
  refine ⟨keys.trans managed.keys, fun other member => ?_⟩
  rw [servers]
  by_cases same : other = name
  · subst same
    exact ⟨server, Function.update_self ..⟩
  · obtain ⟨standing, found⟩ := managed.standing other member
    exact ⟨standing, (Function.update_of_ne same ..).trans found⟩

theorem managed_kept (serde : McpSerde) (environment : Nat → Turn) (names : List String) :
    KeptRoutes serde environment (fun _ => True) (fun _ => True) (Managed names) fun _ => True where
  initializes := trivial
  lists _ := trivial
  requestId _ managed := ⟨managed.keys, managed.standing⟩
  turn managed := ⟨managed.keys, managed.standing⟩
  accept managed _ := ⟨managed.keys, managed.standing⟩
  request spoke reads managed isThere isProcess := by
    rename_i before other server process id method params
    obtain ⟨-, -, keys, same | ⟨later, updated⟩⟩ := request_world other server process
      (JsonRpcRequest.new id method (some params)) before
    · refine ⟨⟨keys.trans managed.keys, fun standing member => ?_⟩, fun _ _ => trivial⟩
      rw [same]
      exact managed.standing standing member
    · exact ⟨managed.setServer keys updated, fun _ _ => trivial⟩
  spawn managed _ _ := managed.setServer rfl rfl
  ready managed _ := managed.setServer rfl rfl
  names _ _ _ := trivial
  clear _ managed := ⟨managed.keys, managed.standing⟩
  insert _ _ managed := ⟨managed.keys, managed.standing⟩
  stop managed _ _ := managed.setServer rfl rfl
  drop _ managed := managed.setServer rfl rfl

/-! ## A discovery -/

/-- A discovery that succeeds has started every server. -/
theorem discoverFrom_starts {pages : Nat} {names : List String} {found tools : List ManagedMcpTool}
    (done : discoverFrom serde environment pages names found world = (.ok tools, after)) :
    ∀ name ∈ names, after.Started name := by
  induction names generalizing found world with
  | nil => exact List.forall_mem_nil _
  | cons first rest ih =>
      obtain ⟨⟨⟩, readied, ensured, afterReady⟩ := Action.of_bind_ok done
      obtain ⟨⟨⟩, cleared, clearing, afterClear⟩ := Action.of_bind_ok afterReady
      obtain ⟨listed, paged, paging, others⟩ := Action.of_bind_ok afterClear
      have startedCleared : cleared.Started first := by
        rw [← (Prod.mk.inj clearing).2]
        exact (ensureServerReady_ok ensured).started
      have startedPaged : paged.Started first :=
        keeps_ok (listPages_keepsFor (started_kept serde environment first) (fun _ => trivial)
          (fun _ started => started) pages none found) startedCleared paging
      rw [List.forall_mem_cons]
      refine ⟨?_, ih others⟩
      exact keeps_ok (discoverFrom_started pages rest listed) startedPaged others

/-- A first server that is spawned, or that had a process, stays started, whatever fails. -/
theorem discoverFrom_first {pages : Nat} {first : String} {rest : List String}
    {found : List ManagedMcpTool} {server : ManagedMcpServer}
    (isThere : world.manager.servers first = some server)
    (spawns : server.process = none → (environment world.clock).spawnError = none) :
    (discoverFrom serde environment pages (first :: rest) found world).2.Started first := by
  have readies : (ensureServerReady serde environment first world).2.Started first := by
    cases isProcess : server.process with
    | some process =>
        exact ensureServerReady_keeps (started_kept serde environment first) first world
          ⟨server, isThere, by rw [isProcess]; rfl⟩
    | none =>
        have looked : serverMut first world = (.ok server, world) := by
          rw [serverMut_apply, isThere]
        have turned : nextTurn environment world =
            (.ok (environment world.clock), { world with clock := world.clock + 1 }) := rfl
        have spawned : Action.when server.process.isNone (spawnServer environment first) world =
            (.ok (), { world with clock := world.clock + 1 }.setServer first { process := some {} }) := by
          rw [isProcess]
          show spawnServer environment first world = _
          rw [spawnServer, Action.bind_ok turned, spawns isProcess]
          rfl
        rw [ensureServerReady, Action.bind_ok looked, Action.bind_ok spawned]
        have rest : Action.Keeps (fun world => world.Started first) (serverMut first >>= fun server =>
            Action.when (!server.initialized) (initializeServer serde environment first)) := by
          refine Action.Keeps.bind (serverMut_keeps first) fun server => ?_
          exact Action.Keeps.when _ (initializeServer_keeps (started_kept serde environment first) first)
        exact rest _ ⟨_, Function.update_self .., rfl⟩
  have others : Action.Keeps (fun world => world.Started first) (do
      clearRoutesForServer first
      let found ← listPages serde environment first pages none found
      discoverFrom serde environment pages rest found) := by
    refine Action.Keeps.bind (Action.Keeps.modify fun _ started => started) fun _ => ?_
    refine Action.Keeps.bind ?_ fun listed => discoverFrom_started pages rest listed
    exact listPages_keepsFor (started_kept serde environment first) (fun _ => trivial)
      (fun _ started => started) pages none found
  cases ensured : ensureServerReady serde environment first world with
  | mk result middle =>
      rw [ensured] at readies
      cases result with
      | ok done =>
          rw [discoverFrom, Action.bind_ok ensured]
          exact others middle readies
      | error error =>
          rw [discoverFrom, Action.bind_error ensured]
          exact readies

/-- **What a discovery that fails leaves**: servers that run, but where the first was not spawned. -/
theorem discoverTools_failed_iff {pages : Nat} {stop : Stop}
    (managed : Managed world.manager.names world)
    (failed : discoverTools serde environment pages world = (.error stop, after)) :
    (∀ name ∈ world.manager.names, after.Idle name) ↔
      (∀ name ∈ world.manager.names, world.Idle name) ∧
        (environment world.clock).spawnError.isSome = true := by
  have run : discoverFrom serde environment pages world.manager.names [] world =
      (.error stop, after) := failed
  cases names : world.manager.names with
  | nil =>
      rw [names] at run
      cases run
  | cons first rest =>
      rw [names] at run managed
      have member : first ∈ first :: rest := List.mem_cons_self
      obtain ⟨server, isThere⟩ := managed.standing first member
      -- Where the first server is not spawned nothing has changed.
      have unspawned {error : IoError} (absent : server.process = none)
          (fails : (environment world.clock).spawnError = some error) :
          after = { world with clock := world.clock + 1 } := by
        have looked : serverMut first world = (.ok server, world) := by
          rw [serverMut_apply, isThere]
        have turned : nextTurn environment world =
            (.ok (environment world.clock), { world with clock := world.clock + 1 }) := rfl
        have spawned : Action.when server.process.isNone (spawnServer environment first) world =
            (.error (.failed (.io error)), { world with clock := world.clock + 1 }) := by
          rw [absent]
          show spawnServer environment first world = _
          rw [spawnServer, Action.bind_ok turned, fails]
          rfl
        have ensured : ensureServerReady serde environment first world =
            (.error (.failed (.io error)), { world with clock := world.clock + 1 }) := by
          rw [ensureServerReady, Action.bind_ok looked, Action.bind_error spawned]
        rw [discoverFrom, Action.bind_error ensured] at run
        exact (Prod.mk.inj run).2.symm
      constructor
      · intro idle
        have notStarted : ¬after.Started first := fun started => started.not_idle (idle first member)
        cases isProcess : server.process with
        | some process =>
            have started := @discoverFrom_first serde environment world pages first rest [] server
              isThere (fun same => by rw [isProcess] at same; cases same)
            rw [run] at started
            exact absurd started notStarted
        | none =>
            cases fails : (environment world.clock).spawnError with
            | none =>
                have started := @discoverFrom_first serde environment world pages first rest [] server
                  isThere fun _ => fails
                rw [run] at started
                exact absurd started notStarted
            | some error =>
                rw [unspawned isProcess fails] at idle
                exact ⟨idle, rfl⟩
      · rintro ⟨idle, fails⟩
        obtain ⟨error, fails⟩ := Option.isSome_iff_exists.1 fails
        have fresh := idle first member
        rw [World.Idle, isThere] at fresh
        have absent : server.process = none := by rw [Option.some.inj fresh]
        rw [unspawned absent fails]
        exact idle

/-! ## A shutdown -/

variable {server : ManagedMcpServer} {process : McpStdioProcess}

/-- A child is found to have exited or killed, or nothing changes. -/
theorem stopChild_cases (name : String) (server : ManagedMcpServer) (process : McpStdioProcess)
    (turn : Turn) (world : World) :
    ((turn.exited = .ok true ∨ turn.exited = .ok false ∧ turn.killError = none) ∧
        stopChild name server process turn world = (.ok (), world.setServer name
          { server with process := some { process with running := false } })) ∨
      ¬(turn.exited = .ok true ∨ turn.exited = .ok false ∧ turn.killError = none) ∧
        ∃ error, stopChild name server process turn world = (.error error, world) := by
  cases exited : turn.exited with
  | error error =>
      refine .inr ⟨by simp, .failed (.io error), ?_⟩
      rw [stopChild, exited]
      rfl
  | ok has =>
      cases has with
      | true =>
          refine .inl ⟨.inl rfl, ?_⟩
          rw [stopChild, exited]
          rfl
      | false =>
          cases killed : turn.killError with
          | none =>
              refine .inl ⟨.inr ⟨rfl, rfl⟩, ?_⟩
              rw [stopChild, exited, killed]
              rfl
          | some error =>
              refine .inr ⟨by simp, .failed (.io error), ?_⟩
              rw [stopChild, exited, killed]
              rfl

theorem shutdownServer_stops (isProcess : server.process = some process)
    (stops : (environment world.clock).Stops) :
    ∃ later, shutdownServer environment name server world =
      (.ok (), { world with clock := world.clock + 1 }.setServer name later) := by
  have turned : nextTurn environment world =
      (.ok (environment world.clock), { world with clock := world.clock + 1 }) := rfl
  obtain ⟨-, stopped⟩ | ⟨stays, -⟩ := stopChild_cases name server process (environment world.clock)
    { world with clock := world.clock + 1 }
  · refine ⟨{ server with process := some { process with running := false } }, ?_⟩
    rw [shutdownServer, isProcess]
    dsimp only
    rw [Action.bind_ok turned, Action.bind_ok stopped, stops.2]
    rfl
  · exact absurd stops.1 stays

/-- A server that cannot be stopped keeps its process, and the others are left alone. -/
theorem shutdownServer_fails (isProcess : server.process = some process)
    (fails : ¬(environment world.clock).Stops) :
    ∃ error after, shutdownServer environment name server world = (.error error, after) ∧
      ∀ other, world.Started other → after.Started other := by
  have turned : nextTurn environment world =
      (.ok (environment world.clock), { world with clock := world.clock + 1 }) := rfl
  rw [shutdownServer, isProcess]
  dsimp only
  rw [Action.bind_ok turned]
  obtain ⟨ends, stopped⟩ | ⟨-, error, stopped⟩ := stopChild_cases name server process
    (environment world.clock) { world with clock := world.clock + 1 }
  · rw [Action.bind_ok stopped]
    cases waits : (environment world.clock).waitError with
    | none => exact absurd ⟨ends, waits⟩ fails
    | some error =>
        refine ⟨_, _, rfl, ?_⟩
        rintro other ⟨standing, found, isSome⟩
        by_cases same : other = name
        · subst same
          exact ⟨_, Function.update_self .., rfl⟩
        · exact ⟨standing, (Function.update_of_ne same ..).trans found, isSome⟩
  · rw [Action.bind_error stopped]
    exact ⟨error, _, rfl, fun other before => before⟩

/-- A shutdown of started servers goes on to the next where one stops, and ends where one does not. -/
theorem shutdownFrom_step {rest : List String} (started : world.Started name) :
    ((environment world.clock).Stops ∧ ∃ next, next.clock = world.clock + 1 ∧ next.Idle name ∧
        (∀ other, other ≠ name → next.manager.servers other = world.manager.servers other) ∧
        shutdownFrom environment (name :: rest) world = shutdownFrom environment rest next ∧
        ∀ other, StopFails environment other (name :: rest) world ↔
          StopFails environment other rest next) ∨
      ¬(environment world.clock).Stops ∧
        (∀ other, world.Started other →
          (shutdownFrom environment (name :: rest) world).2.Started other) ∧
        ∀ other, StopFails environment other (name :: rest) world ↔ other = name := by
  obtain ⟨server, isThere, isSome⟩ := started
  obtain ⟨process, isProcess⟩ := Option.isSome_iff_exists.1 isSome
  have looked : serverMut name world = (.ok server, world) := by
    rw [serverMut_apply, isThere]
  by_cases stops : (environment world.clock).Stops
  · obtain ⟨later, done⟩ := @shutdownServer_stops environment world name server process isProcess stops
    refine .inl ⟨stops, ({ world with clock := world.clock + 1 }.setServer name later).setServer name {},
      rfl, ?_, fun other differs => ?_, ?_, fun other => ?_⟩
    · exact Function.update_self ..
    · exact (Function.update_of_ne differs ..).trans (Function.update_of_ne differs ..)
    · rw [shutdownFrom, Action.bind_ok looked, Action.bind_ok done]
      rfl
    · rw [StopFails, isThere]
      dsimp only
      rw [done]
  · obtain ⟨error, after, done, kept⟩ :=
      @shutdownServer_fails environment world name server process isProcess stops
    refine .inr ⟨stops, fun other before => ?_, fun other => ?_⟩
    · rw [shutdownFrom, Action.bind_ok looked, Action.bind_error done]
      exact kept other before
    · rw [StopFails, isThere]
      dsimp only
      rw [done]

/-- A shutdown leaves alone what it does not name. -/
theorem shutdownFrom_other (environment : Nat → Turn) {names : List String} (outside : name ∉ names) :
    Action.Keeps (fun world => world.Idle name) (shutdownFrom environment names) := by
  have frame {other : String} (differs : name ≠ other) (later : ManagedMcpServer) {world : World}
      (idle : world.Idle name) : (world.setServer other later).Idle name :=
    (Function.update_of_ne differs ..).trans idle
  induction names with
  | nil => exact Action.Keeps.pure _
  | cons first rest ih =>
      rw [List.mem_cons, not_or] at outside
      refine Action.Keeps.bind (serverMut_keeps first) fun server => ?_
      refine Action.Keeps.bind ?_ fun _ => ?_
      · unfold shutdownServer
        split
        · exact Action.Keeps.pure _
        rename_i process isProcess
        have turned : Action.Keeps (fun world => world.Idle name) (nextTurn environment) :=
          fun _ idle => idle
        refine Action.Keeps.bind turned fun turn => ?_
        refine Action.Keeps.bind ?_ fun _ => ?_
        · intro world idle
          obtain ⟨-, stopped⟩ | ⟨-, error, stopped⟩ := stopChild_cases first server process turn world
          · rw [stopped]
            exact frame outside.1 _ idle
          · rw [stopped]
            exact idle
        · split
          · exact Action.Keeps.fail _
          · exact Action.Keeps.pure _
      · refine Action.Keeps.bind (Action.Keeps.modify fun world idle => frame outside.1 _ idle) fun _ => ?_
        exact ih outside.2

/-- **A shutdown leaves every server idle**, or unable to be stopped, just when no server but the
last cannot be stopped. -/
theorem shutdownFrom_leaves_iff {names : List String} (distinct : names.Nodup)
    (started : ∀ name ∈ names, world.Started name) :
    (∀ name ∈ names, StopFails environment name names world ∨
        (shutdownFrom environment names world).2.Idle name) ↔
      ∀ i, i + 1 < names.length → (environment (world.clock + i)).Stops := by
  induction names generalizing world with
  | nil => simp
  | cons first rest ih =>
      obtain ⟨startedFirst, startedRest⟩ := List.forall_mem_cons.1 started
      obtain ⟨outside, distinctRest⟩ := List.nodup_cons.1 distinct
      obtain ⟨stops, next, clock, idle, others, goes, fails⟩ | ⟨stays, kept, fails⟩ :=
        @shutdownFrom_step environment world first rest startedFirst
      · have differs : ∀ name ∈ rest, name ≠ first := by
          rintro name member rfl
          exact outside member
        have nextStarted : ∀ name ∈ rest, next.Started name := by
          intro name member
          obtain ⟨server, found, isSome⟩ := startedRest name member
          exact ⟨server, (others name (differs name member)).trans found, isSome⟩
        have idleFirst := shutdownFrom_other environment outside next idle
        rw [List.forall_mem_cons]
        simp only [fails, goes]
        rw [ih distinctRest nextStarted, clock]
        constructor
        · rintro ⟨-, later⟩ i less
          cases i with
          | zero => exact stops
          | succ i =>
              have here := later i (by simpa using less)
              rwa [Nat.add_assoc, Nat.add_comm 1 i] at here
        · intro all
          refine ⟨.inr idleFirst, fun i less => ?_⟩
          have here := all (i + 1) (by simpa using less)
          rwa [← Nat.add_assoc, Nat.add_right_comm] at here
      · constructor
        · intro leaves i less
          cases rest with
          | nil => simp at less
          | cons second rest =>
              have member : second ∈ first :: second :: rest := by simp
              obtain failed | idle := leaves second member
              · have same := (fails second).1 failed
                exact absurd (same ▸ List.mem_cons_self) outside
              · exact absurd idle (kept second (started second member)).not_idle
        · intro all
          cases rest with
          | nil =>
              intro name member
              exact .inl ((fails name).2 (List.mem_singleton.1 member))
          | cons second rest =>
              have here := all 0 (by simp)
              rw [Nat.add_zero] at here
              exact absurd here stays

end Operations

/-! ## A bridged call -/

section Bridge

variable {serde : McpSerde} {environment : Nat → Turn} {world : World} {pages : Nat}
  {toValue : McpToolCallResult → Except String Json} {name : String} {arguments : Option Json}

theorem managed_afterOperations (serde : McpSerde) (environment : Nat → Turn)
    (servers : ServerConfigs) (operations : List Operation) :
    let world := afterOperations serde environment servers operations
    Managed world.manager.names world := by
  have managed := afterOperations_holds
    (managed_kept serde environment (McpServerManager.fromServers servers).names)
    (fun _ _ => trivial) servers ⟨rfl, fun name member => ?_⟩ operations
  · exact ⟨rfl, managed.keys ▸ managed.standing⟩
  · obtain ⟨entry, isEntry, rfl⟩ := List.mem_map.1 member
    obtain ⟨inside, stdio⟩ := List.mem_filter.1 isEntry
    have here : (entry.1, McpTransport.stdio) ∈ servers.entries := by
      rw [← of_decide_eq_true stdio]
      exact inside
    exact ⟨{}, if_pos here⟩

/-- The servers are all started when the shutdown begins. -/
theorem start_of_discovered (managed : Managed world.manager.names world) {tools : List ManagedMcpTool}
    {found : World} (discovered : discoverTools serde environment pages world = (.ok tools, found)) :
    let start := (callTool serde environment name arguments found).2
    start.manager.names = world.manager.names ∧ ∀ server ∈ world.manager.names, start.Started server := by
  have kept := managed_kept serde environment world.manager.names
  have managedFound := keeps_ok (discoverTools_keeps kept pages) managed discovered
  have startedFound : ∀ server ∈ world.manager.names, found.Started server := by
    rw [discoverTools] at discovered
    exact discoverFrom_starts discovered
  refine ⟨?_, fun server member => ?_⟩
  · exact (callTool_keeps kept.toKept (fun _ _ => trivial) name arguments found managedFound).keys
  · exact callTool_keeps (started_kept serde environment server) (fun _ _ => trivial) name arguments
      found (startedFound server member)

theorem idle_and_ready_iff {after : World} {server : String} :
    (after.Idle server ∧ ensureServerReady serde environment server after =
      (spawnServer environment server >>= fun _ => initializeServer serde environment server) after) ↔
      after.Idle server := ⟨fun both => both.1, fun idle => ⟨idle, ensureServerReady_idle idle⟩⟩

theorem leavesNoServer_iff_of_managed (managed : Managed world.manager.names world) :
    LeavesNoServer serde environment toValue pages name arguments world ↔
      CleansUp serde environment pages name arguments world := by
  unfold LeavesNoServer CleansUp
  simp only [idle_and_ready_iff, spawnToolCall_snd]
  cases discovered : discoverTools serde environment pages world with
  | mk result after =>
      cases result with
      | ok tools =>
          obtain ⟨names, started⟩ := @start_of_discovered serde environment world pages name arguments
            managed tools after discovered
          have own (server : String) :
              OwnStopFailed serde environment pages name arguments world server ↔
                StopFails environment server world.manager.names
                  (callTool serde environment name arguments after).2 := by
            rw [← names]
            constructor
            · rintro ⟨others, found, same, fails⟩
              rw [discovered] at same
              cases same
              exact fails
            · intro fails
              exact ⟨tools, after, discovered, fails⟩
          have returns : Returns serde environment pages world := by
            intro other same
            rw [discovered] at same
            cases same
          have shut : (shutdown environment (callTool serde environment name arguments after).2).2 =
              (shutdownFrom environment world.manager.names
                (callTool serde environment name arguments after).2).2 := by
            rw [← names]
            rfl
          have leaves := @shutdownFrom_leaves_iff environment _ _ world.manager.distinct started
          dsimp only
          rw [shut, names]
          constructor
          · intro leavesNone
            exact leaves.1 fun server member =>
              (leavesNone returns server member).imp (own server).1 id
          · intro stops _ server member
            exact (leaves.2 stops server member).imp (own server).2 id
      | error stop =>
          have own (server : String) :
              ¬OwnStopFailed serde environment pages name arguments world server := by
            rintro ⟨others, found, same, -⟩
            rw [discovered] at same
            cases same
          cases stop with
          | listing =>
              refine ⟨fun _ => trivial, fun _ returns => ?_⟩
              exact absurd discovered (returns after)
          | failed error =>
              have returns : Returns serde environment pages world := by
                intro other same
                rw [discovered] at same
                cases same
              dsimp only
              simp only [returns, true_implies, own, false_or]
              exact discoverTools_failed_iff managed discovered

end Bridge

/-- A server that is spawned and ends without an answer. -/
def muteEnvironment : Nat → Turn := fun _ => {}

end Openyak.Runtime.Mcp
