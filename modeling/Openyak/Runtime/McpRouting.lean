/-
# Runtime.McpRouting -- which tool a call by qualified name reaches

The qualified name is the only key of the routes.  A discovery that succeeds leaves under
each name the route of the last tool it listed by that name (`RoutedBy`), and every server it
listed ready, so that a call goes out, to that route.

A call reaches the tool it was made for exactly if no other tool was listed under the name.
-/
import Openyak.Runtime.McpPairing
import Openyak.Runtime.McpToolBridge

namespace Openyak.Runtime.Mcp

open Openyak.Theory

set_option autoImplicit false

/-! ## What an observer sees of the calls -/

/-- A `tools/call` and the server it was written to. -/
structure ToolCall where
  serverName : String
  params : McpToolCallParams

def Sent.call? (sent : Sent) : Option ToolCall :=
  match sent.request.params with
  | some (.toolCallParams params) => some ⟨sent.server, params⟩
  | _ => none

def World.calls (world : World) : List ToolCall := world.sent.filterMap Sent.call?

/-- A server with a process that is ready for requests. -/
def World.Ready (world : World) (name : String) : Prop :=
  ∃ server, world.manager.servers name = some server ∧ server.process.isSome = true ∧
    server.initialized = true

def World.Started (world : World) (name : String) : Prop :=
  ∃ server, world.manager.servers name = some server ∧ server.process.isSome = true

theorem World.Ready.started {world : World} {name : String} (ready : world.Ready name) :
    world.Started name := by
  obtain ⟨server, found, isThere, -⟩ := ready
  exact ⟨server, found, isThere⟩

section Requests

variable {environment : Nat → Turn} {α : Type}
  {decode : List UInt8 → Except String (JsonRpcResponse α)}

/-- **What a request changes**, whatever comes of it: one more is sent, and the server has
another state of its process. -/
theorem request_world (name : String) (server : ManagedMcpServer) (process : McpStdioProcess)
    (message : JsonRpcRequest McpParams) (world : World) :
    let after := (request environment decode name server process message world).2
    after.sent = world.sent ++ [⟨world.sent.length, name, message⟩] ∧
      after.manager.toolIndex = world.manager.toolIndex ∧
      after.manager.names = world.manager.names ∧
      (after.manager.servers = world.manager.servers ∨ ∃ later,
        after.manager.servers = Function.update world.manager.servers name
          (some { server with process := some later })) := by
  unfold request
  dsimp only
  split
  · exact ⟨rfl, rfl, rfl, .inl rfl⟩
  · split
    · exact ⟨rfl, rfl, rfl, .inr ⟨_, rfl⟩⟩
    · split
      · exact ⟨rfl, rfl, rfl, .inr ⟨_, rfl⟩⟩
      · exact ⟨rfl, rfl, rfl, .inr ⟨_, rfl⟩⟩

variable (environment) (decode) in
/-- A request goes out to a server that is started. -/
theorem requestFrom_sent {name : String} (method details : String) (params : McpParams)
    {world : World} (started : world.Started name) :
    (requestFrom environment decode name method details params world).2.sent =
      world.sent ++ [⟨world.sent.length, name,
        JsonRpcRequest.new (.number world.manager.nextRequestId) method (some params)⟩] := by
  obtain ⟨server, found, isThere⟩ := started
  obtain ⟨process, isProcess⟩ := Option.isSome_iff_exists.1 isThere
  have taken : ∃ next, takeRequestId world =
      (.ok (.number world.manager.nextRequestId), world.setRequestId next) := ⟨_, rfl⟩
  obtain ⟨next, taken⟩ := taken
  have looked : serverMut name (world.setRequestId next) =
      (.ok server, world.setRequestId next) := by
    rw [serverMut_apply]
    rw [show (world.setRequestId next).manager.servers name = some server from found]
  rw [requestFrom, Action.bind_ok taken, Action.bind_ok looked, isProcess]
  exact (request_world name server process _ _).1

end Requests

/-! ## What is left alone -/

/-- Later: servers stay as ready as they were, and no tool was called. -/
structure Quiet (world after : World) : Prop where
  started : ∀ name, world.Started name → after.Started name
  ready : ∀ name, world.Ready name → after.Ready name
  calls : after.calls = world.calls

theorem Quiet.refl (world : World) : Quiet world world :=
  ⟨fun _ => id, fun _ => id, rfl⟩

theorem Quiet.trans {world middle after : World} (first : Quiet world middle)
    (second : Quiet middle after) : Quiet world after :=
  ⟨fun name started => second.started name (first.started name started),
    fun name ready => second.ready name (first.ready name ready), second.calls.trans first.calls⟩

/-- Another state for a server that is as ready as the one before. -/
theorem Quiet.setServer {world middle after : World} (quiet : Quiet world middle) {name : String}
    {server later : ManagedMcpServer} (found : middle.manager.servers name = some server)
    (started : server.process.isSome = true → later.process.isSome = true)
    (ready : server.process.isSome = true → server.initialized = true → later.initialized = true)
    (servers : after.manager.servers = Function.update middle.manager.servers name (some later))
    (calls : after.calls = middle.calls) : Quiet world after := by
  refine quiet.trans ⟨?_, ?_, calls⟩
  · rintro other ⟨standing, isThere, isSome⟩
    by_cases same : other = name
    · subst same
      rw [found] at isThere
      cases isThere
      exact ⟨later, by rw [servers, Function.update_self], started isSome⟩
    · exact ⟨standing, by rw [servers, Function.update_of_ne same, isThere], isSome⟩
  · rintro other ⟨standing, isThere, isSome, isReady⟩
    by_cases same : other = name
    · subst same
      rw [found] at isThere
      cases isThere
      exact ⟨later, by rw [servers, Function.update_self], started isSome, ready isSome isReady⟩
    · exact ⟨standing, by rw [servers, Function.update_of_ne same, isThere], isSome, isReady⟩

/-- A request that is no call of a tool. -/
def NoCall (params : McpParams) : Prop := ∀ call, params ≠ .toolCallParams call

theorem calls_send {world after : World} {sent : Sent} {params : McpParams}
    (grown : after.sent = world.sent ++ [sent]) (holds : sent.request.params = some params)
    (noCall : NoCall params) : after.calls = world.calls := by
  have silent : sent.call? = none := by
    unfold Sent.call?
    split
    · rename_i call same
      rw [holds] at same
      exact absurd (Option.some.inj same) (noCall call)
    · rfl
  rw [World.calls, grown, List.filterMap_append, List.filterMap_cons, silent]
  exact List.append_nil _

/-- Quiet, and the routes as they were. -/
structure Still (world after : World) : Prop extends Quiet world after where
  toolIndex : after.manager.toolIndex = world.manager.toolIndex

theorem still_kept (serde : McpSerde) (environment : Nat → Turn) (world : World) :
    Kept serde environment NoCall (Still world) fun _ => True where
  initializes := nofun
  requestId _ still := ⟨⟨still.started, still.ready, still.calls⟩, still.toolIndex⟩
  turn still := ⟨⟨still.started, still.ready, still.calls⟩, still.toolIndex⟩
  accept still _ := ⟨⟨still.started, still.ready, still.calls⟩, still.toolIndex⟩
  request noCall reads still isThere isProcess := by
    rename_i before name server process id method params
    obtain ⟨sent, index, -, servers⟩ := request_world name server process
      (JsonRpcRequest.new id method (some params)) before
    have calls := calls_send sent rfl noCall
    refine ⟨⟨?_, index.trans still.toolIndex⟩, fun _ _ => trivial⟩
    rcases servers with same | ⟨later, updated⟩
    · refine still.toQuiet.trans ⟨?_, ?_, calls⟩
      · rintro other ⟨standing, found, isSome⟩
        exact ⟨standing, by rw [same, found], isSome⟩
      · rintro other ⟨standing, found, isSome, isReady⟩
        exact ⟨standing, by rw [same, found], isSome, isReady⟩
    · refine still.toQuiet.setServer isThere ?_ ?_ updated calls
      · exact fun _ => rfl
      · exact fun _ isReady => isReady
  spawn still isThere absent := by
    refine ⟨still.toQuiet.setServer isThere (fun isSome => ?_) (fun isSome => ?_) rfl rfl,
      still.toolIndex⟩
    · rw [absent] at isSome
      cases isSome
    · rw [absent] at isSome
      cases isSome
  ready still isThere := by
    refine ⟨still.toQuiet.setServer isThere ?_ ?_ rfl rfl, still.toolIndex⟩
    · exact id
    · exact fun _ _ => rfl

theorem Still.refl (world : World) : Still world world := ⟨Quiet.refl world, rfl⟩

/-! ## Servers that are ready -/

section Ready

variable {serde : McpSerde} {environment : Nat → Turn} {world after : World} {name : String}

theorem spawnServer_ok (done : spawnServer environment name world = (.ok (), after)) :
    after.Started name := by
  obtain ⟨turn, turned, turns, done⟩ := Action.of_bind_ok done
  cases spawned : turn.spawnError with
  | some error =>
      rw [spawned] at done
      cases done
  | none =>
      rw [spawned] at done
      cases done
      exact ⟨{ process := some {} }, Function.update_self .., rfl⟩

/-- What an action leaves, read off a run of it. -/
theorem keeps_ok {α : Type} {holds : World → Prop} {act : ManagerAction α} {value : α}
    (keeps : Action.Keeps holds act) (held : holds world) (done : act world = (.ok value, after)) :
    holds after := by
  have kept := keeps world held
  rw [done] at kept
  exact kept

theorem requestFrom_still {α : Type} {decode : List UInt8 → Except String (JsonRpcResponse α)}
    (reads : serde.Reads decode) (method details : String) {params : McpParams}
    (noCall : NoCall params) {answer : Answer α}
    (done : requestFrom environment decode name method details params world = (.ok answer, after)) :
    Still world after := by
  have kept := requestFrom_keeps (still_kept serde environment world) reads name method details
    noCall world (Still.refl world)
  rw [done] at kept
  exact kept.1

theorem noCall_initialize : NoCall (.initializeParams defaultInitializeParams) := by
  intro call same
  cases same

theorem initializeServer_ok (started : world.Started name)
    (done : initializeServer serde environment name world = (.ok (), after)) :
    after.Ready name := by
  obtain ⟨answer, asked, requested, afterRequest⟩ := Action.of_bind_ok done
  obtain ⟨result, accepted, resulted, afterResult⟩ := Action.of_bind_ok afterRequest
  obtain ⟨server, same, looked, marked⟩ := Action.of_bind_ok afterResult
  have reads : serde.Reads serde.initializeResponse :=
    fun _ _ response answers => answers.initializeResponse response
  have first := requestFrom_still reads _ _ noCall_initialize requested
  have second := keeps_ok (resultOf_keeps (still_kept serde environment asked) name "initialize"
    trivial) (Still.refl asked) resulted
  obtain ⟨still, found⟩ := serverMut_ok looked
  obtain ⟨standing, isThere, isSome⟩ := second.started name (first.started name started)
  rw [found] at isThere
  cases isThere
  have last : after = same.setServer name { server with initialized := true } :=
    (Prod.mk.inj marked).2.symm
  rw [last]
  exact ⟨{ server with initialized := true }, Function.update_self .., isSome, rfl⟩

theorem ensureServerReady_ok
    (done : ensureServerReady serde environment name world = (.ok (), after)) :
    after.Ready name := by
  obtain ⟨server, same, looked, afterLook⟩ := Action.of_bind_ok done
  obtain ⟨⟨⟩, middle, spawned, afterSpawn⟩ := Action.of_bind_ok afterLook
  obtain ⟨later, again, lookedLater, last⟩ := Action.of_bind_ok afterSpawn
  obtain ⟨rfl, isThere⟩ := serverMut_ok looked
  obtain ⟨rfl, isThereLater⟩ := serverMut_ok lookedLater
  have started : again.Started name := by
    cases absent : server.process.isNone with
    | true =>
        rw [absent] at spawned
        exact spawnServer_ok spawned
    | false =>
        rw [absent] at spawned
        have still : same = again := (Prod.mk.inj spawned).2
        rw [← still]
        refine ⟨server, isThere, ?_⟩
        rw [← Option.not_isNone, absent]
        rfl
  cases isReady : later.initialized with
  | false =>
      rw [isReady] at last
      exact initializeServer_ok started last
  | true =>
      rw [isReady] at last
      have still : again = after := (Prod.mk.inj last).2
      obtain ⟨standing, found, isSome⟩ := started
      rw [isThereLater] at found
      cases found
      rw [← still]
      exact ⟨later, isThereLater, isSome, isReady⟩

/-- A server that is ready needs nothing. -/
theorem ensureServerReady_ready (ready : world.Ready name) :
    ensureServerReady serde environment name world = (.ok (), world) := by
  obtain ⟨server, found, isSome, isReady⟩ := ready
  have looked : serverMut name world = (.ok server, world) := by
    rw [serverMut_apply, found]
  have present : Action.when server.process.isNone (spawnServer environment name) world =
      (.ok (), world) := by
    obtain ⟨process, isThere⟩ := Option.isSome_iff_exists.1 isSome
    rw [isThere]
    rfl
  have initialized : Action.when (!server.initialized)
      (initializeServer serde environment name) world = (.ok (), world) := by
    rw [isReady]
    rfl
  rw [ensureServerReady, Action.bind_ok looked, Action.bind_ok present, Action.bind_ok looked]
  exact initialized

theorem ensureServerReady_still
    (done : ensureServerReady serde environment name world = (.ok (), after)) :
    Still world after :=
  keeps_ok (ensureServerReady_keeps (still_kept serde environment world) name) (Still.refl world) done

end Ready

/-! ## The routes a discovery leaves -/

/-- The last of the tools that were listed under a name. -/
def lastNamed (name : String) (tools : List ManagedMcpTool) : Option ManagedMcpTool :=
  (tools.filter fun tool => tool.qualifiedName = name).getLast?

theorem lastNamed_append (name : String) (tools more : List ManagedMcpTool) :
    lastNamed name (tools ++ more) = (lastNamed name more).or (lastNamed name tools) := by
  rw [lastNamed, List.filter_append, List.getLast?_append]
  rfl

theorem lastNamed_some {name : String} {tools : List ManagedMcpTool} {tool : ManagedMcpTool}
    (last : lastNamed name tools = some tool) : tool ∈ tools ∧ tool.qualifiedName = name := by
  have member := List.mem_filter.1 (List.mem_of_getLast? last)
  exact ⟨member.1, of_decide_eq_true member.2⟩

theorem lastNamed_isSome {name : String} {tools : List ManagedMcpTool} {tool : ManagedMcpTool}
    (member : tool ∈ tools) (named : tool.qualifiedName = name) :
    ∃ last, lastNamed name tools = some last := by
  rw [← Option.isSome_iff_exists, lastNamed, List.getLast?_isSome]
  exact List.ne_nil_of_mem (List.mem_filter.2 ⟨member, decide_eq_true named⟩)

/-- Every name has the route of the last tool listed under it, and any other name the route
that `base` has for it. -/
def RoutedBy (base : String → Option ToolRoute) (tools : List ManagedMcpTool) (world : World) :
    Prop :=
  ∀ name, world.manager.toolIndex name =
    ((lastNamed name tools).map ManagedMcpTool.route).or (base name)

theorem insertRoutes_toolIndex (world : World) (tools : List ManagedMcpTool) (name : String) :
    (world.insertRoutes tools).manager.toolIndex name =
      ((lastNamed name tools).map ManagedMcpTool.route).or (world.manager.toolIndex name) := by
  show tools.foldl _ world.manager.toolIndex name = _
  induction tools using List.reverseRecOn with
  | nil => rfl
  | append_singleton tools tool ih =>
      rw [List.foldl_append, List.foldl_cons, List.foldl_nil, lastNamed_append]
      by_cases same : name = tool.qualifiedName
      · have one : lastNamed name [tool] = some tool := by simp [lastNamed, same]
        rw [one, same, Function.update_self]
        rfl
      · have none_ : lastNamed name [tool] = none := by simp [lastNamed, Ne.symm same]
        rw [none_, Function.update_of_ne same, ih, Option.none_or]

theorem RoutedBy.insert {base : String → Option ToolRoute} {tools : List ManagedMcpTool}
    {world : World} (routed : RoutedBy base tools world) (more : List ManagedMcpTool) :
    RoutedBy base (tools ++ more) (world.insertRoutes more) := by
  intro name
  rw [insertRoutes_toolIndex, routed name, lastNamed_append, Option.map_or, Option.or_assoc]

/-- The routes of a server are taken out of `base`, for none of the tools is that server's. -/
theorem RoutedBy.clear {base : String → Option ToolRoute} {tools : List ManagedMcpTool}
    {world : World} (routed : RoutedBy base tools world) {serverName : String}
    (apart : ∀ tool ∈ tools, tool.serverName ≠ serverName) :
    RoutedBy (fun name => (base name).filter fun route => route.serverName ≠ serverName) tools
      (world.clearRoutes serverName) := by
  intro name
  show (world.manager.toolIndex name).filter _ = _
  rw [routed name]
  cases last : lastNamed name tools with
  | none => rfl
  | some tool =>
      have other : tool.route.serverName ≠ serverName := apart tool (lastNamed_some last).1
      simp [other]

section Discovery

variable {serde : McpSerde} {environment : Nat → Turn}

/-- **The pages of a server**: what they list is routed, and nothing else changed. -/
theorem listPages_ok {name : String} {pages : Nat} {cursor : Option String}
    {found tools : List ManagedMcpTool} {world after : World} {base : String → Option ToolRoute}
    (routed : RoutedBy base found world)
    (done : listPages serde environment name pages cursor found world = (.ok tools, after)) :
    Quiet world after ∧ RoutedBy base tools after ∧
      ∀ tool ∈ tools, tool ∈ found ∨ tool.serverName = name := by
  induction pages generalizing cursor found world with
  | zero => cases done
  | succ pages ih =>
      obtain ⟨answer, asked, requested, afterRequest⟩ := Action.of_bind_ok done
      obtain ⟨result, accepted, resulted, afterResult⟩ := Action.of_bind_ok afterRequest
      obtain ⟨⟨⟩, inserted, insertion, rest⟩ := Action.of_bind_ok afterResult
      have reads : serde.Reads serde.listToolsResponse :=
        fun _ _ response answers => answers.listToolsResponse response
      have noCall : NoCall (.listToolsParams ⟨cursor⟩) := by
        intro call same
        cases same
      have first := requestFrom_still reads _ _ noCall requested
      have second := keeps_ok (resultOf_keeps (still_kept serde environment asked) name "tools/list"
        trivial) (Still.refl asked) resulted
      have third : inserted = accepted.insertRoutes (result.tools.map (ManagedMcpTool.of name)) :=
        (Prod.mk.inj insertion).2.symm
      have quiet : Quiet world inserted := by
        rw [third]
        exact (first.toQuiet.trans second.toQuiet).trans ⟨fun _ => id, fun _ => id, rfl⟩
      have same : accepted.manager.toolIndex = world.manager.toolIndex :=
        second.toolIndex.trans first.toolIndex
      have routedAccepted : RoutedBy base found accepted := by
        intro other
        rw [same]
        exact routed other
      have routedInserted := routedAccepted.insert (result.tools.map (ManagedMcpTool.of name))
      rw [← third] at routedInserted
      have isListed : ∀ tool ∈ found ++ result.tools.map (ManagedMcpTool.of name),
          tool ∈ found ∨ tool.serverName = name := by
        intro tool member
        rcases List.mem_append.1 member with earlier | listed
        · exact .inl earlier
        · obtain ⟨info, -, rfl⟩ := List.mem_map.1 listed
          exact .inr rfl
      cases more : result.nextCursor with
      | some next =>
          rw [more] at rest
          obtain ⟨later, routedAfter, listed⟩ := ih routedInserted rest
          refine ⟨quiet.trans later, routedAfter, fun tool member => ?_⟩
          rcases listed tool member with earlier | here
          · exact isListed tool earlier
          · exact .inr here
      | none =>
          rw [more] at rest
          cases rest
          exact ⟨quiet, routedInserted, isListed⟩

/-- **A discovery that succeeds** leaves the servers it listed ready and their tools routed,
and of the routes before it those of other servers. -/
theorem discoverFrom_ok {pages : Nat} {names : List String} {found tools : List ManagedMcpTool}
    {world after : World} {base : String → Option ToolRoute} (distinct : names.Nodup)
    (apart : ∀ tool ∈ found, tool.serverName ∉ names)
    (ready : ∀ tool ∈ found, world.Ready tool.serverName) (routed : RoutedBy base found world)
    (done : discoverFrom serde environment pages names found world = (.ok tools, after)) :
    (∀ tool ∈ tools, after.Ready tool.serverName) ∧
      RoutedBy (fun name => (base name).filter fun route => route.serverName ∉ names) tools after := by
  induction names generalizing found world base with
  | nil =>
      cases done
      refine ⟨ready, fun name => ?_⟩
      have whole : (base name).filter (fun route => route.serverName ∉ ([] : List String)) =
          base name := by cases base name <;> rfl
      rw [routed name]
      exact congrArg _ whole.symm
  | cons name names ih =>
      obtain ⟨⟨⟩, readied, ensured, afterReady⟩ := Action.of_bind_ok done
      obtain ⟨⟨⟩, cleared, clearing, afterClear⟩ := Action.of_bind_ok afterReady
      obtain ⟨listed, paged, paging, rest⟩ := Action.of_bind_ok afterClear
      have first := ensureServerReady_still ensured
      have isReady := ensureServerReady_ok ensured
      have second : cleared = readied.clearRoutes name := (Prod.mk.inj clearing).2.symm
      have quietCleared : Quiet world cleared := by
        rw [second]
        exact first.toQuiet.trans ⟨fun _ => id, fun _ => id, rfl⟩
      have readyCleared : cleared.Ready name := by
        rw [second]
        exact isReady
      rw [List.nodup_cons] at distinct
      have others : ∀ tool ∈ found, tool.serverName ≠ name ∧ tool.serverName ∉ names := by
        intro tool member
        have outside := apart tool member
        rw [List.mem_cons, not_or] at outside
        exact outside
      have routedReadied : RoutedBy base found readied := by
        intro other
        rw [first.toolIndex]
        exact routed other
      have routedCleared := routedReadied.clear fun tool member => (others tool member).1
      rw [← second] at routedCleared
      obtain ⟨quietPaged, routedPaged, isListed⟩ := listPages_ok routedCleared paging
      obtain ⟨allReady, allRouted⟩ := ih distinct.2
        (fun tool member => by
          rcases isListed tool member with earlier | here
          · exact (others tool earlier).2
          · exact here ▸ distinct.1)
        (fun tool member => by
          rcases isListed tool member with earlier | here
          · exact quietPaged.ready _ (quietCleared.ready _ (ready tool earlier))
          · exact here ▸ quietPaged.ready _ readyCleared)
        routedPaged rest
      refine ⟨allReady, fun other => ?_⟩
      rw [allRouted other]
      congr 1
      dsimp only
      cases base other with
      | none => rfl
      | some route =>
          by_cases same : route.serverName = name <;> simp

/-! ## Calls -/

variable {world : World} {name : String} {arguments : Option Json}

theorem callTool_unknown (unknown : world.manager.toolIndex name = none) :
    (callTool serde environment name arguments world).2 = world := by
  have looked : (Action.get : ManagerAction World) world = (.ok world, world) := rfl
  have none_ : (Action.orFail (world.manager.toolIndex name) (.failed (.unknownTool name)) :
      ManagerAction ToolRoute) world = (.error (.failed (.unknownTool name)), world) := by
    rw [unknown]
    rfl
  rw [callTool, Action.bind_ok looked, Action.bind_error none_]

/-- **A call of a name goes to its route**, when its server is ready. -/
theorem callTool_calls {route : ToolRoute} (known : world.manager.toolIndex name = some route)
    (ready : world.Ready route.serverName) :
    (callTool serde environment name arguments world).2.calls =
      world.calls ++ [⟨route.serverName, ⟨route.rawName, arguments, none⟩⟩] := by
  have looked : (Action.get : ManagerAction World) world = (.ok world, world) := rfl
  have found : (Action.orFail (world.manager.toolIndex name) (.failed (.unknownTool name)) :
      ManagerAction ToolRoute) world = (.ok route, world) := by
    rw [known]
    rfl
  have sent := requestFrom_sent environment serde.toolCallResponse
    "tools/call" "server process missing after initialization"
    (.toolCallParams ⟨route.rawName, arguments, none⟩) ready.started
  rw [callTool, Action.bind_ok looked, Action.bind_ok found,
    Action.bind_ok (ensureServerReady_ready ready)]
  cases asked : requestFrom environment serde.toolCallResponse route.serverName "tools/call"
      "server process missing after initialization"
      (.toolCallParams ⟨route.rawName, arguments, none⟩) world with
  | mk result after =>
      rw [asked] at sent
      have grown : after.calls = world.calls ++
          [⟨route.serverName, ⟨route.rawName, arguments, none⟩⟩] := by
        rw [World.calls, sent, List.filterMap_append]
        rfl
      cases result with
      | ok answer =>
          rw [Action.bind_ok asked]
          exact grown
      | error error =>
          rw [Action.bind_error asked]
          exact grown

end Discovery

/-! ## Every route is to a server of the manager -/

structure KnownRoutes (names : List String) (world : World) : Prop where
  keys : world.manager.names = names
  known : ∀ name route, world.manager.toolIndex name = some route → route.serverName ∈ names

theorem knownRoutes_kept (serde : McpSerde) (environment : Nat → Turn) (names : List String) :
    KeptRoutes serde environment (fun _ => True) (· ∈ names) (KnownRoutes names)
      fun _ => True where
  initializes := trivial
  lists _ := trivial
  requestId _ held := ⟨held.keys, held.known⟩
  turn held := ⟨held.keys, held.known⟩
  accept held _ := ⟨held.keys, held.known⟩
  request spoke reads held isThere isProcess := by
    rename_i before name server process id method params
    obtain ⟨-, index, same, -⟩ := request_world name server process
      (JsonRpcRequest.new id method (some params)) before
    refine ⟨⟨same.trans held.keys, fun other route found => ?_⟩, fun _ _ => trivial⟩
    rw [index] at found
    exact held.known other route found
  spawn held _ _ := ⟨held.keys, held.known⟩
  ready held _ := ⟨held.keys, held.known⟩
  names held name member := held.keys ▸ member
  clear _ held :=
    ⟨held.keys, fun other route found => held.known other route (Option.mem_filter_iff.1 found).1⟩
  insert tools isAllowed held := by
    refine ⟨held.keys, fun other route found => ?_⟩
    rw [insertRoutes_toolIndex] at found
    rcases Option.or_eq_some_iff.1 found with inserted | ⟨-, before⟩
    · obtain ⟨tool, last, rfl⟩ := Option.map_eq_some_iff.1 inserted
      obtain ⟨info, -, rfl⟩ := List.mem_map.1 (lastNamed_some last).1
      exact isAllowed
    · exact held.known other route before
  stop held _ _ := ⟨held.keys, held.known⟩
  drop _ held := ⟨held.keys, held.known⟩

/-- **What a discovery routes**: every server it listed is ready, and under each name stands
the last tool it listed by that name, and no other. -/
theorem discoverTools_ok {serde : McpSerde} {environment : Nat → Turn} {pages : Nat}
    {world after : World} {tools : List ManagedMcpTool}
    (known : KnownRoutes world.manager.names world)
    (done : discoverTools serde environment pages world = (.ok tools, after)) :
    (∀ tool ∈ tools, after.Ready tool.serverName) ∧ ∀ name, after.manager.toolIndex name =
      (lastNamed name tools).map ManagedMcpTool.route := by
  have routed : RoutedBy world.manager.toolIndex [] world := fun name => (Option.none_or).symm
  obtain ⟨ready, routedAfter⟩ := discoverFrom_ok world.manager.distinct
    (List.forall_mem_nil _) (List.forall_mem_nil _) routed done
  refine ⟨ready, fun name => ?_⟩
  rw [routedAfter name]
  have gone : (world.manager.toolIndex name).filter
      (fun route => route.serverName ∉ world.manager.names) = none := by
    cases before : world.manager.toolIndex name with
    | none => rfl
    | some route => simp [known.known name route before]
  dsimp only
  rw [gone, Option.or_none]

/-! ## A discovery and a shutdown call no tool -/

theorem calls_kept (serde : McpSerde) (environment : Nat → Turn) (calls : List ToolCall) :
    KeptRoutes serde environment NoCall (fun _ => True) (fun world => world.calls = calls)
      fun _ => True where
  initializes := noCall_initialize
  lists _ := by
    intro call same
    cases same
  requestId _ same := same
  turn same := same
  accept same _ := same
  request noCall reads same isThere isProcess := by
    rename_i before name server process id method params
    obtain ⟨sent, -⟩ := request_world name server process
      (JsonRpcRequest.new id method (some params)) before
    exact ⟨(calls_send sent rfl noCall).trans same, fun _ _ => trivial⟩
  spawn same _ _ := same
  ready same _ := same
  names _ _ _ := trivial
  clear _ same := same
  insert _ _ same := same
  stop same _ _ := same
  drop _ same := same

section Registry

variable {serde : McpSerde} {environment : Nat → Turn} {world : World}
  {toValue : McpToolCallResult → Except String Json}

theorem settle_snd {α : Type} (response : Except CallStop α) (stopped : Except CallStop PUnit)
    (world : World) : (settle response stopped world).2 = world := by
  cases response <;> cases stopped <;> rfl

theorem valueOf_snd (response : JsonRpcResponse McpToolCallResult) (world : World) :
    (valueOf toValue response world).2 = world := by
  unfold valueOf
  cases response.error with
  | some error => rfl
  | none =>
      cases response.result with
      | none => rfl
      | some result =>
          dsimp only
          cases toValue result with
          | error error => rfl
          | ok value => rfl

theorem settled_snd (response : Except CallStop (JsonRpcResponse McpToolCallResult))
    (stopped : Except CallStop PUnit) (world : World) :
    ((settle response stopped >>= valueOf toValue) world).2 = world := by
  have still := settle_snd response stopped world
  cases settled : settle response stopped world with
  | mk outcome later =>
      rw [settled] at still
      cases outcome with
      | error error =>
          rw [Action.bind_error settled]
          exact still
      | ok response =>
          rw [Action.bind_ok settled, valueOf_snd]
          exact still

/-- What a bridged call leaves: the shutdown behind the call, if the tools were discovered. -/
theorem spawnToolCall_snd (pages : Nat) (name : String) (arguments : Option Json) :
    (spawnToolCall serde environment toValue pages name arguments world).2 =
      match discoverTools serde environment pages world with
      | (.ok _, after) => (shutdown environment (callTool serde environment name arguments after).2).2
      | (.error _, after) => after := by
  cases discovered : discoverTools serde environment pages world with
  | mk result after =>
      cases result with
      | error error =>
          have failed : (discoverTools serde environment pages).mapError Stop.toCallStop world =
              (.error error.toCallStop, after) := by
            rw [Action.mapError, discovered]
          rw [spawnToolCall, Action.bind_error failed]
      | ok tools =>
          have found : (discoverTools serde environment pages).mapError Stop.toCallStop world =
              (.ok tools, after) := by
            rw [Action.mapError, discovered]
          rw [spawnToolCall, Action.bind_ok found, Action.bind_ok (Action.attempt_apply _ _),
            Action.bind_ok (Action.attempt_apply _ _), Action.mapError_snd, Action.mapError_snd]
          exact settled_snd _ _ _

/-- The calls of a bridged call: those of the call by name, if the tools were discovered. -/
theorem spawnToolCall_calls (pages : Nat) (name : String) (arguments : Option Json) :
    (spawnToolCall serde environment toValue pages name arguments world).2.calls =
      match discoverTools serde environment pages world with
      | (.ok _, after) => (callTool serde environment name arguments after).2.calls
      | (.error _, _) => world.calls := by
  have kept := discoverTools_keeps (calls_kept serde environment world.calls) pages world rfl
  rw [spawnToolCall_snd]
  cases discovered : discoverTools serde environment pages world with
  | mk result after =>
      rw [discovered] at kept
      cases result with
      | error error => exact kept
      | ok tools =>
          exact shutdown_keeps (calls_kept serde environment
            (callTool serde environment name arguments after).2.calls)
            (callTool serde environment name arguments after).2 rfl

end Registry

/-! ## The tool that is reached -/

theorem known_afterOperations (serde : McpSerde) (environment : Nat → Turn)
    (servers : ServerConfigs) (operations : List Operation) :
    let world := afterOperations serde environment servers operations
    KnownRoutes world.manager.names world := by
  have known := afterOperations_holds
    (knownRoutes_kept serde environment (McpServerManager.fromServers servers).names)
    (fun _ _ => trivial) servers ⟨rfl, fun name route none_ => by cases none_⟩ operations
  exact ⟨rfl, known.keys ▸ known.known⟩

/-- The calls of one tool, by the tool and its arguments. -/
theorem call_reaches_iff {serde : McpSerde} {environment : Nat → Turn} {after : World}
    {tools : List ManagedMcpTool} (ready : ∀ tool ∈ tools, after.Ready tool.serverName)
    (index : ∀ name, after.manager.toolIndex name =
      (lastNamed name tools).map ManagedMcpTool.route)
    {tool last : ManagedMcpTool} (isLast : lastNamed tool.qualifiedName tools = some last)
    (arguments : Option Json) :
    (callTool serde environment tool.qualifiedName arguments after).2.calls =
        after.calls ++ [⟨tool.serverName, ⟨tool.rawName, arguments, none⟩⟩] ↔
      last.route = tool.route := by
  have known : after.manager.toolIndex tool.qualifiedName = some last.route := by
    rw [index, isLast]
    rfl
  rw [callTool_calls known (ready last (lastNamed_some isLast).1), List.append_cancel_left_eq]
  constructor
  · intro same
    have call := List.singleton_inj.1 same
    exact congrArg₂ ToolRoute.mk (congrArg ToolCall.serverName call)
      (congrArg (fun call => call.params.name) call)
  · intro same
    rw [same]
    rfl

/-- **A call reaches the tool it names exactly if the name is that tool's alone.**  In any
state of the manager: after a discovery that succeeded, all calls by the qualified names it
returned go to their own tools if and only if tools of one qualified name are one tool; and
a call through the registry runs no other tool than the one it names if and only if the
discovery it makes lists no other tool last under that tool's qualified name. -/
theorem calls_reach_named_iff (serde : McpSerde) (environment : Nat → Turn)
    (toValue : McpToolCallResult → Except String Json) (servers : ServerConfigs)
    (operations : List Operation) (pages : Nat) :
    let world := afterOperations serde environment servers operations
    (∀ tools after, discoverTools serde environment pages world = (.ok tools, after) →
      ((∀ tool ∈ tools, ∀ arguments,
          (callTool serde environment tool.qualifiedName arguments after).2.calls =
            after.calls ++ [⟨tool.serverName, ⟨tool.rawName, arguments, none⟩⟩]) ↔
        ∀ tool ∈ tools, ∀ other ∈ tools,
          tool.qualifiedName = other.qualifiedName → tool.route = other.route)) ∧
    ∀ (registry : McpToolRegistry) serverName toolName arguments,
      registry.Lists serverName toolName →
      ((∃ more, (registry.callTool serde environment toValue pages serverName toolName arguments
          world).2.calls = world.calls ++ more ∧
          ∀ call ∈ more, call.serverName = serverName ∧ call.params.name = toolName) ↔
        ∀ tools after, discoverTools serde environment pages world = (.ok tools, after) →
          ∀ tool, lastNamed (mcpToolName serverName toolName) tools = some tool →
            tool.route = ⟨serverName, toolName⟩) := by
  intro world
  have known : KnownRoutes world.manager.names world :=
    known_afterOperations serde environment servers operations
  refine ⟨fun tools after done => ?_, fun registry serverName toolName arguments lists => ?_⟩
  · obtain ⟨ready, index⟩ := discoverTools_ok known done
    constructor
    · intro reach tool member other otherMember named
      obtain ⟨last, isLast⟩ := lastNamed_isSome member rfl
      have first := (call_reaches_iff ready index isLast none).1 (reach tool member none)
      have second := (call_reaches_iff ready index (named ▸ isLast) none).1
        (reach other otherMember none)
      exact first.symm.trans second
    · intro alone tool member arguments
      obtain ⟨last, isLast⟩ := lastNamed_isSome member rfl
      obtain ⟨isTool, named⟩ := lastNamed_some isLast
      exact (call_reaches_iff ready index isLast arguments).2 (alone last isTool tool member named)
  · rw [lists.callTool, spawnToolCall_calls]
    cases discovered : discoverTools serde environment pages world with
    | mk result after =>
        cases result with
        | error error =>
            refine iff_of_true ⟨[], (List.append_nil _).symm, List.forall_mem_nil _⟩ ?_
            intro tools other same
            cases same
        | ok tools =>
            obtain ⟨ready, index⟩ := discoverTools_ok known discovered
            have quiet := discoverTools_keeps (calls_kept serde environment world.calls) pages world rfl
            rw [discovered] at quiet
            have before : after.calls = world.calls := quiet
            dsimp only
            cases isLast : lastNamed (mcpToolName serverName toolName) tools with
            | none =>
                have unknown : after.manager.toolIndex (mcpToolName serverName toolName) = none := by
                  rw [index, isLast]
                  rfl
                rw [callTool_unknown unknown, before]
                refine iff_of_true ⟨[], (List.append_nil _).symm, List.forall_mem_nil _⟩ ?_
                intro others later same tool found
                cases same
                rw [isLast] at found
                cases found
            | some last =>
                have routed : after.manager.toolIndex (mcpToolName serverName toolName) =
                    some last.route := by
                  rw [index, isLast]
                  rfl
                rw [callTool_calls routed (ready last (lastNamed_some isLast).1), before]
                constructor
                · rintro ⟨more, grown, named⟩ others later same tool found
                  cases same
                  rw [isLast] at found
                  cases found
                  have call := List.append_cancel_left grown
                  obtain ⟨server, raw⟩ := named _ (call ▸ List.mem_singleton_self _)
                  exact congrArg₂ ToolRoute.mk server raw
                · intro alone
                  have same := alone tools after rfl last isLast
                  refine ⟨_, rfl, List.forall_mem_singleton.2 ?_⟩
                  exact ⟨congrArg ToolRoute.serverName same, congrArg ToolRoute.rawName same⟩

/-! ## Two tools of one name -/

def twinText : Payload :=
  payloadOf ("\x7b\"jsonrpc\":\"2.0\",\"id\":2,\"result\":\x7b\"tools\":[" ++
    "\x7b\"name\":\"read file\"\x7d,\x7b\"name\":\"read_file\"\x7d]\x7d\x7d")

/-- `serde_json` on the texts of a server that lists the two. -/
def twinSerde : McpSerde where
  initializeResponse bytes :=
    if bytes = initializeText.bytes then
      .ok ⟨"2.0", .number 1, some ⟨"2025-03-26", .object [], ⟨"s", "1"⟩⟩, none⟩
    else .error "missing field `protocolVersion`"
  listToolsResponse bytes :=
    if bytes = twinText.bytes then
      .ok ⟨"2.0", .number 2, some ⟨[{ name := "read file" }, { name := "read_file" }], none⟩, none⟩
    else .error "missing field `tools`"
  toolCallResponse _ := .error "missing field `jsonrpc`"

def twinEnvironment : Nat → Turn
  | 1 => { answer := answerTo 1 initializeText }
  | 2 => { answer := answerTo 2 twinText }
  | _ => {}

def twinWorld : World := afterOperations twinSerde twinEnvironment oneServer []

def twinDiscovery : Except Stop (List ManagedMcpTool) × World :=
  discoverTools twinSerde twinEnvironment 1 twinWorld

/-- The registry that knows the server and its tool `read_file`. -/
def twinRegistry : McpToolRegistry where
  inner := fun _ => some ⟨"s", .connected, [{ name := "read_file" }]⟩
  configured := true

/-- The later of the two is reached through the registry. -/
theorem calls_reach_named_iff_twin :
    (∃ more, (twinRegistry.callTool twinSerde twinEnvironment (fun _ => .ok .null) 1 "s" "read_file"
        .null twinWorld).2.calls = twinWorld.calls ++ more ∧
        ∀ call ∈ more, call.serverName = "s" ∧ call.params.name = "read_file") ↔
      ∀ tools after, twinDiscovery = (.ok tools, after) →
        ∀ tool, lastNamed (mcpToolName "s" "read_file") tools = some tool →
          tool.route = ⟨"s", "read_file"⟩ :=
  (calls_reach_named_iff twinSerde twinEnvironment (fun _ => .ok .null) oneServer [] 1).2
    twinRegistry "s" "read_file" .null
    ⟨⟨_, rfl, rfl, { name := "read_file" }, List.mem_singleton_self _, rfl⟩, rfl⟩

/-- The earlier is listed under the same name, and a call of it runs the later. -/
theorem twin_reaches_other :
    ∃ tools tool, twinDiscovery.1 = .ok tools ∧ tool ∈ tools ∧ tool.rawName = "read file" ∧
      (callTool twinSerde twinEnvironment tool.qualifiedName none twinDiscovery.2).2.calls ≠
        twinDiscovery.2.calls ++ [⟨tool.serverName, ⟨tool.rawName, none, none⟩⟩] := by
  have listed : twinDiscovery.1.toOption.map
      (fun tools => tools.map fun tool => (tool.serverName, tool.qualifiedName, tool.rawName)) =
      some [("s", "mcp__s__read_file", "read file"), ("s", "mcp__s__read_file", "read_file")] := by
    decide +kernel
  have called : (callTool twinSerde twinEnvironment "mcp__s__read_file" none
      twinDiscovery.2).2.calls.map (fun call => call.params.name) = ["read_file"] := by
    decide +kernel
  obtain ⟨tools, found, names⟩ := Option.map_eq_some_iff.1 listed
  have discovered : twinDiscovery.1 = .ok tools := by
    cases result : twinDiscovery.1 with
    | error error =>
        rw [result] at found
        cases found
    | ok others =>
        rw [result] at found
        exact congrArg Except.ok (Option.some.inj found)
  have first : ("s", "mcp__s__read_file", "read file") ∈
      tools.map fun tool => (tool.serverName, tool.qualifiedName, tool.rawName) := by
    rw [names]
    exact List.mem_cons_self
  obtain ⟨tool, member, same⟩ := List.mem_map.1 first
  obtain ⟨-, qualified, raw⟩ := Prod.mk.inj same |>.imp id Prod.mk.inj
  refine ⟨tools, tool, discovered, member, raw, fun reached => ?_⟩
  rw [qualified] at reached
  have last := congrArg (fun calls => (calls.map fun call => call.params.name).getLast?) reached
  rw [called, List.map_append, List.map_singleton, List.getLast?_concat] at last
  exact absurd ((Option.some.inj last).trans raw) (by decide)

end Openyak.Runtime.Mcp
