/-
# Cli.ReplyConsumers -- the command line's stream against the sub-agents'

Both consumers take a stream's events apart into the pieces of
`Theory.Demultiplex`: a tool's start opens a value under its block index, input
deltas feed it, a stop closes it, and everything else is emitted.  The
sub-agents' client (`Tools.stream`) is the reader by key and the command line's
(`Cli.stream`) the reader with one slot; what comes out of either is then read,
tool calls by parsing, and concluded.

They differ in three places: the order of the pieces, the parser of a user-input
payload, and a stream cut off behind nothing but user-input calls.  `Straight`
excludes the three.
-/
import Openyak.Cli.ReplyStream
import Openyak.Theory.Demultiplex
import Openyak.Api.StreamBrackets

namespace Openyak.Cli

open Openyak.Theory
open Openyak.Theory.Demultiplex
open Openyak.Api
open Openyak.Runtime
open Openyak.Tools (ReplySerde PendingTool requestUserInputToolName textEvents)

set_option autoImplicit false

/-! ## Pieces -/

abbrev ReplyPiece := Piece UInt32 PendingTool String AssistantEvent

abbrev ReplyOut := Out PendingTool AssistantEvent

def feedInput (tool : PendingTool) (text : String) : PendingTool :=
  { tool with input := tool.input ++ text }

variable (serde : ReplySerde)

def startPieces (index : UInt32) : OutputContentBlock → List ReplyPiece
  | .text text => (textEvents text).map .emitted
  | .toolUse id name input =>
      [.opened index ⟨id, name, if input.isEmptyObject then "" else serde.toText input⟩]
  | .thinking .. | .redactedThinking _ => []

def eventPieces : StreamEvent → List ReplyPiece
  | .messageStart message => message.content.flatMap (startPieces serde 0)
  | .contentBlockStart index block => startPieces serde index block
  | .contentBlockDelta _ (.textDelta text) => (textEvents text).map .emitted
  | .contentBlockDelta index (.inputJsonDelta partialJson) => [.fed index partialJson]
  | .contentBlockDelta _ _ => []
  | .contentBlockStop index => [.closed index]
  | .messageDelta _ usage =>
      [.emitted (.usage
        { inputTokens := usage.inputTokens
          outputTokens := usage.outputTokens
          cacheCreationInputTokens := 0
          cacheReadInputTokens := 0 })]
  | .messageStop => [.emitted .messageStop]

def pieces (events : List StreamEvent) : List ReplyPiece := events.flatMap (eventPieces serde)

/-- What the provider sends: the events, then the end or an error. -/
def deliver (events : List StreamEvent) (broken : Option String) :
    List (Except String StreamEvent) :=
  events.map .ok ++ (broken.map .error).toList

/-! ## Reading what comes out -/

def parsePendingOutputBlock (tool : PendingTool) : Except RuntimeError AssistantEvent :=
  if tool.name = requestUserInputToolName then
    (parseRequestUserInputRequest serde tool.id tool.input).map .requestUserInput
  else .ok (.toolUse tool.id tool.name tool.input)

section Reading

variable (parse : PendingTool → Except RuntimeError AssistantEvent)

def readOut : ReplyOut → Except RuntimeError AssistantEvent
  | .value tool => parse tool
  | .emitted event => .ok event

/-- All of it, or the first error. -/
def readAll : List ReplyOut → Except RuntimeError (List AssistantEvent)
  | [] => .ok []
  | out :: outs =>
      match readOut parse out with
      | .error error => .error error
      | .ok event => (readAll outs).map (event :: ·)

/-- The events of a reply that was received to its end: as they are with a message
stop among them, with one added when something `speaks`, and otherwise none. -/
def closing (speaks : AssistantEvent → Bool) (events : List AssistantEvent) :
    Option (List AssistantEvent) :=
  if AssistantEvent.messageStop ∈ events then some events
  else if events.any speaks then some (events ++ [.messageStop])
  else none

/-- Asking again without streaming. -/
def askAgain (answer : MessageResponse → Except RuntimeError (List AssistantEvent)) :
    Except String MessageResponse → Except RuntimeError (List AssistantEvent)
  | .error error => .error { message := error }
  | .ok response => answer response

def conclude (speaks : AssistantEvent → Bool) (broken : Option String)
    (fallBack : Except RuntimeError (List AssistantEvent)) :
    Except RuntimeError (List AssistantEvent) → Except RuntimeError (List AssistantEvent)
  | .error error => .error error
  | .ok events =>
      match broken with
      | some error => .error { message := error }
      | none =>
          match closing speaks events with
          | some events => .ok events
          | none => fallBack

/-- Events pushed, and whether a message stop is among them. -/
def gained (events more : List AssistantEvent) : List AssistantEvent × Bool :=
  (events ++ more, decide (AssistantEvent.messageStop ∈ events ++ more))

theorem readAll_cons (out : ReplyOut) {event : AssistantEvent} (read : readOut parse out = .ok event)
    (events : List AssistantEvent) (outs : List ReplyOut) :
    (readAll parse (out :: outs)).map (gained events) =
      (readAll parse outs).map (gained (events ++ [event])) := by
  rw [readAll, read]
  cases readAll parse outs with
  | error error => rfl
  | ok more => simp [Except.map, gained]

theorem stopped_push {events : List AssistantEvent} {sawStop : Bool}
    (stopped : sawStop = decide (AssistantEvent.messageStop ∈ events)) (event : AssistantEvent) :
    (sawStop || event == .messageStop) =
      decide (AssistantEvent.messageStop ∈ events ++ [event]) := by
  rw [stopped]
  by_cases stop : event = .messageStop
  · simp [stop]
  · simp [stop, Ne.symm stop]

/-- The two ends of a stream received whole. -/
theorem closing_eq (speaks : AssistantEvent → Bool) (events : List AssistantEvent)
    (fallBack : Except RuntimeError (List AssistantEvent)) :
    (let closed :=
      if !decide (AssistantEvent.messageStop ∈ events) && events.any speaks then
        events ++ [.messageStop]
      else events
    if AssistantEvent.messageStop ∈ closed then Except.ok closed else fallBack) =
      conclude speaks none fallBack (.ok events) := by
  by_cases stop : AssistantEvent.messageStop ∈ events
  · simp [conclude, closing, stop]
  · by_cases spoken : events.any speaks = true
    · simp [conclude, closing, stop, spoken]
    · simp [conclude, closing, stop, spoken]

end Reading

/-! ## The sub-agents' client reads by key -/

/-- Its step, piece by piece. -/
def toolsTake (reply : Tools.Reply) : ReplyPiece → Except RuntimeError Tools.Reply
  | .opened index tool => .ok
      { reply with pendingTools := reply.pendingTools.insert index tool }
  | .fed index text => .ok (Tools.ingestDelta index reply (.inputJsonDelta text))
  | .closed index => reply.close serde index
  | .emitted event => .ok
      { reply with
        events := reply.events ++ [event]
        sawStop := reply.sawStop || event == .messageStop }

theorem toolsTake_texts (text : String) (reply : Tools.Reply) :
    ((textEvents text).map Piece.emitted).foldlM (toolsTake serde) reply =
      .ok { reply with events := reply.events ++ textEvents text } := by
  by_cases empty : text = ""
  · simp [textEvents, empty, pure, Except.pure]
  · simp [textEvents, empty, toolsTake, pure, Except.pure, bind, Except.bind]

theorem toolsTake_start (index : UInt32) (block : OutputContentBlock) (reply : Tools.Reply) :
    (startPieces serde index block).foldlM (toolsTake serde) reply =
      .ok (Tools.pushOutputBlock serde true index reply block) := by
  cases block with
  | text text => exact toolsTake_texts serde text reply
  | toolUse id name input => simp [startPieces, toolsTake, Tools.pushOutputBlock, pure,
      Except.pure, bind, Except.bind]
  | thinking thinking signature => rfl
  | redactedThinking data => rfl

theorem tools_ingest_eq (reply : Tools.Reply) (event : StreamEvent) :
    Tools.ingest serde reply event = (eventPieces serde event).foldlM (toolsTake serde) reply := by
  cases event with
  | messageStart message =>
      rw [Tools.ingest, eventPieces]
      induction message.content generalizing reply with
      | nil => rfl
      | cons block blocks ih =>
          rw [List.foldl_cons, List.flatMap_cons, List.foldlM_append, toolsTake_start]
          exact ih _
  | contentBlockStart index block => exact (toolsTake_start serde index block reply).symm
  | contentBlockDelta index delta =>
      cases delta with
      | textDelta text => exact (toolsTake_texts serde text reply).symm
      | inputJsonDelta text => simp [Tools.ingest, eventPieces, toolsTake, pure, Except.pure,
          bind, Except.bind]
      | thinkingDelta text => rfl
      | signatureDelta text => rfl
  | contentBlockStop index =>
      rw [Tools.ingest, eventPieces, List.foldlM_cons, toolsTake]
      cases reply.close serde index <;> rfl
  | messageDelta delta usage => simp [Tools.ingest, eventPieces, toolsTake, pure, Except.pure,
      bind, Except.bind]
  | messageStop => simp [Tools.ingest, eventPieces, toolsTake, pure, Except.pure,
      bind, Except.bind]

theorem tools_ingestAll_eq (reply : Tools.Reply) (events : List StreamEvent)
    (broken : Option String) :
    Tools.ingestAll serde reply (deliver events broken) =
      match (pieces serde events).foldlM (toolsTake serde) reply, broken with
      | .error error, _ => .error error
      | .ok _, some error => .error { message := error }
      | .ok reply, none => .ok reply := by
  induction events generalizing reply with
  | nil => cases broken <;> rfl
  | cons event events ih =>
      rw [show deliver (event :: events) broken = .ok event :: deliver events broken from rfl,
        Tools.ingestAll, tools_ingest_eq]
      rw [show pieces serde (event :: events) = eventPieces serde event ++ pieces serde events from
        List.flatMap_cons, List.foldlM_append]
      cases taken : (eventPieces serde event).foldlM (toolsTake serde) reply with
      | error error => rfl
      | ok next => exact ih next

/-- The sub-agents' state beside the reader by key. -/
structure Keeps (reply : Tools.Reply) (held : UInt32 → Option PendingTool) : Prop where
  tools : ∀ index, reply.pendingTools[index]? = held index
  stopped : reply.sawStop = decide (AssistantEvent.messageStop ∈ reply.events)

theorem parsed_not_stop {tool : PendingTool} {event : AssistantEvent}
    (parsed : Tools.parsePendingOutputBlock serde tool = .ok event) :
    (event == .messageStop) = false := by
  refine beq_false_of_ne ?_
  rintro rfl
  rw [Tools.parsePendingOutputBlock] at parsed
  split at parsed
  · cases payload : Tools.parseRequestUserInputRequest serde tool.id tool.input <;>
      simp [payload, Except.map] at parsed
  · cases parsed

theorem Keeps.opened {reply : Tools.Reply} {held : UInt32 → Option PendingTool}
    (keeps : Keeps reply held) (index : UInt32) (tool : PendingTool) :
    Keeps { reply with pendingTools := reply.pendingTools.insert index tool }
      (Function.update held index (some tool)) where
  tools k := by
    rw [Std.TreeMap.getElem?_insert, keeps.tools k]
    by_cases same : index = k
    · simp [same]
    · simp [same, Function.update_of_ne (Ne.symm same)]
  stopped := keeps.stopped

theorem ingestDelta_events (reply : Tools.Reply) (index : UInt32) (text : String) :
    (Tools.ingestDelta index reply (.inputJsonDelta text)).events = reply.events := by
  rw [Tools.ingestDelta]
  cases reply.pendingTools[index]? <;> rfl

theorem Keeps.fed {reply : Tools.Reply} {held : UInt32 → Option PendingTool}
    (keeps : Keeps reply held) (index : UInt32) (text : String) :
    Keeps (Tools.ingestDelta index reply (.inputJsonDelta text))
      (Function.update held index ((held index).map (feedInput · text))) := by
  cases here : held index with
  | none =>
      have untouched : Tools.ingestDelta index reply (.inputJsonDelta text) = reply := by
        rw [Tools.ingestDelta, keeps.tools, here]
      rw [untouched, Option.map_none, ← here, Function.update_eq_self]
      exact keeps
  | some tool =>
      rw [Tools.ingestDelta, keeps.tools, here]
      exact keeps.opened index (feedInput tool text)

theorem Keeps.closed {reply : Tools.Reply} {held : UInt32 → Option PendingTool}
    (keeps : Keeps reply held) (index : UInt32) {event : AssistantEvent}
    (visible : (event == .messageStop) = false) :
    Keeps { reply with
      events := reply.events ++ [event]
      pendingTools := reply.pendingTools.erase index } (Function.update held index none) where
  tools k := by
    rw [Std.TreeMap.getElem?_erase, keeps.tools k]
    by_cases same : index = k
    · simp [same]
    · simp [same, Function.update_of_ne (Ne.symm same)]
  stopped := by
    have pushed := stopped_push keeps.stopped event
    rwa [visible, Bool.or_false] at pushed

/-- What was read of the pieces is what the state's events gained. -/
theorem toolsTake_run (taken : List ReplyPiece) {reply : Tools.Reply}
    {held : UInt32 → Option PendingTool} (keeps : Keeps reply held) :
    ((taken.foldlM (toolsTake serde) reply).map fun last => (last.events, last.sawStop)) =
      (readAll (Tools.parsePendingOutputBlock serde) (byKey feedInput held taken)).map
        (gained reply.events) := by
  induction taken generalizing reply held with
  | nil =>
      show Except.ok (reply.events, reply.sawStop) = Except.ok (gained reply.events [])
      rw [gained, List.append_nil, keeps.stopped]
  | cons piece taken ih =>
      cases piece with
      | opened index tool => exact ih (keeps.opened index tool)
      | fed index text =>
          have later := ih (keeps.fed index text)
          rw [ingestDelta_events] at later
          exact later
      | emitted event =>
          refine (@ih { reply with
            events := reply.events ++ [event]
            sawStop := reply.sawStop || event == .messageStop } held
              ⟨keeps.tools, stopped_push keeps.stopped event⟩).trans ?_
          exact (readAll_cons (Tools.parsePendingOutputBlock serde)
            (.emitted event) rfl reply.events _).symm
      | closed index =>
          rw [byKey_cons, List.foldlM_cons, toolsTake]
          simp only [byKeyStep]
          cases here : held index with
          | none =>
              have untouched : reply.close serde index = .ok reply := by
                rw [Tools.Reply.close, keeps.tools, here]
              have still : Function.update held index none = held := by
                rw [← here, Function.update_eq_self]
              rw [untouched, still]
              exact ih keeps
          | some tool =>
              have shut : reply.close serde index =
                  (Tools.parsePendingOutputBlock serde tool).map fun event =>
                    { reply with
                      events := reply.events ++ [event]
                      pendingTools := reply.pendingTools.erase index } := by
                rw [Tools.Reply.close, keeps.tools, here]
              rw [shut]
              cases parse : Tools.parsePendingOutputBlock serde tool with
              | error error =>
                  show Except.error error = _
                  simp only [Option.toList_some, List.map_cons, List.cons_append, readAll, readOut,
                    parse]
                  rfl
              | ok event =>
                  refine (ih (keeps.closed index (parsed_not_stop serde parse))).trans ?_
                  exact (readAll_cons (Tools.parsePendingOutputBlock serde)
                    (.value tool) parse reply.events _).symm

theorem tools_stream_eq (events : List StreamEvent) (broken : Option String)
    (sendMessage : Except String MessageResponse) :
    Tools.stream serde (deliver events broken) sendMessage =
      conclude Tools.speaks broken (askAgain (Tools.responseToEvents serde) sendMessage)
        (readAll (Tools.parsePendingOutputBlock serde)
          (byKey feedInput (fun _ => none) (pieces serde events))) := by
  have start : Keeps {} (fun _ => none) := ⟨fun index => Std.TreeMap.getElem?_emptyc, rfl⟩
  have run := toolsTake_run serde (pieces serde events) start
  rw [Tools.stream.eq_def, tools_ingestAll_eq]
  cases read : readAll (Tools.parsePendingOutputBlock serde)
      (byKey feedInput (fun _ => none) (pieces serde events)) with
  | error error =>
      cases ran : (pieces serde events).foldlM (toolsTake serde) {} with
      | ok last => simp [read, ran, Except.map] at run
      | error failed =>
          simp only [read, ran, Except.map, Except.error.injEq] at run
          rw [run]
          rfl
  | ok more =>
      cases ran : (pieces serde events).foldlM (toolsTake serde) {} with
      | error failed => simp [read, ran, Except.map] at run
      | ok last =>
          simp only [read, ran, Except.map, gained, List.nil_append, Except.ok.injEq,
            Prod.mk.injEq] at run
          cases broken with
          | some error => rfl
          | none =>
              rw [← closing_eq]
              simp only [run]
              rfl

/-! ## The command line's client has one slot -/

def cliTake (reply : Reply) : ReplyPiece → Except RuntimeError Reply
  | .opened _ tool => .ok { reply with pendingTool := some tool }
  | .fed _ text => .ok (ingestDelta reply (.inputJsonDelta text))
  | .closed _ => reply.finishTool serde
  | .emitted event => .ok
      { reply with
        events := reply.events ++ [event]
        sawStop := reply.sawStop || event == .messageStop }

theorem cliTake_texts (text : String) (reply : Reply) :
    ((textEvents text).map Piece.emitted).foldlM (cliTake serde) reply =
      .ok { reply with events := reply.events ++ textEvents text } := by
  by_cases empty : text = ""
  · simp [textEvents, empty, pure, Except.pure]
  · simp [textEvents, empty, cliTake, pure, Except.pure, bind, Except.bind]

theorem cliTake_start (index : UInt32) (block : OutputContentBlock) (reply : Reply) :
    (startPieces serde index block).foldlM (cliTake serde) reply =
      .ok (pushOutputBlock serde true reply block) := by
  cases block with
  | text text => exact cliTake_texts serde text reply
  | toolUse id name input => simp [startPieces, cliTake, pushOutputBlock, pure,
      Except.pure, bind, Except.bind]
  | thinking thinking signature => rfl
  | redactedThinking data => rfl

theorem ingest_eq (reply : Reply) (event : StreamEvent) :
    ingest serde reply event = (eventPieces serde event).foldlM (cliTake serde) reply := by
  cases event with
  | messageStart message =>
      rw [ingest, eventPieces]
      induction message.content generalizing reply with
      | nil => rfl
      | cons block blocks ih =>
          rw [List.foldl_cons, List.flatMap_cons, List.foldlM_append, cliTake_start]
          exact ih _
  | contentBlockStart index block => exact (cliTake_start serde index block reply).symm
  | contentBlockDelta index delta =>
      cases delta with
      | textDelta text => exact (cliTake_texts serde text reply).symm
      | inputJsonDelta text => simp [ingest, eventPieces, cliTake, pure, Except.pure,
          bind, Except.bind]
      | thinkingDelta text => rfl
      | signatureDelta text => rfl
  | contentBlockStop index =>
      rw [ingest, eventPieces, List.foldlM_cons, cliTake]
      cases reply.finishTool serde <;> rfl
  | messageDelta delta usage => simp [ingest, eventPieces, cliTake, pure, Except.pure,
      bind, Except.bind]
  | messageStop => simp [ingest, eventPieces, cliTake, pure, Except.pure, bind, Except.bind]

theorem ingestAll_eq (reply : Reply) (events : List StreamEvent) (broken : Option String) :
    ingestAll serde reply (deliver events broken) =
      match (pieces serde events).foldlM (cliTake serde) reply, broken with
      | .error error, _ => .error error
      | .ok _, some error => .error { message := error }
      | .ok reply, none => .ok reply := by
  induction events generalizing reply with
  | nil => cases broken <;> rfl
  | cons event events ih =>
      rw [show deliver (event :: events) broken = .ok event :: deliver events broken from rfl,
        ingestAll, ingest_eq]
      rw [show pieces serde (event :: events) = eventPieces serde event ++ pieces serde events from
        List.flatMap_cons, List.foldlM_append]
      cases taken : (eventPieces serde event).foldlM (cliTake serde) reply with
      | error error => rfl
      | ok next => exact ih next

theorem cli_parsed_not_stop {tool : PendingTool} {event : AssistantEvent}
    (parsed : parsePendingOutputBlock serde tool = .ok event) :
    (event == .messageStop) = false := by
  refine beq_false_of_ne ?_
  rintro rfl
  rw [parsePendingOutputBlock] at parsed
  split at parsed
  · cases payload : parseRequestUserInputRequest serde tool.id tool.input <;>
      simp [payload, Except.map] at parsed
  · cases parsed

/-- Finishing the call kept parses it and keeps none. -/
theorem finishTool_eq {reply : Reply} {tool : PendingTool} (kept : reply.pendingTool = some tool) :
    reply.finishTool serde = (parsePendingOutputBlock serde tool).map fun event =>
      { reply with events := reply.events ++ [event], pendingTool := none } := by
  rw [Reply.finishTool, kept]
  show finalizePendingOutputBlock serde tool _ = _
  rw [finalizePendingOutputBlock, parsePendingOutputBlock]
  split
  · cases parseRequestUserInputRequest serde tool.id tool.input <;> rfl
  · rfl

/-- What was read of the pieces is what the state's events gained. -/
theorem cliTake_run (taken : List ReplyPiece) {reply : Reply}
    (stopped : reply.sawStop = decide (AssistantEvent.messageStop ∈ reply.events)) :
    ((taken.foldlM (cliTake serde) reply).map fun last => (last.events, last.sawStop)) =
      (readAll (parsePendingOutputBlock serde) (oneSlot feedInput reply.pendingTool taken)).map
        (gained reply.events) := by
  induction taken generalizing reply with
  | nil =>
      show Except.ok (reply.events, reply.sawStop) = Except.ok (gained reply.events [])
      rw [gained, List.append_nil, stopped]
  | cons piece taken ih =>
      cases piece with
      | opened index tool => exact @ih { reply with pendingTool := some tool } stopped
      | fed index text => exact @ih (ingestDelta reply (.inputJsonDelta text)) stopped
      | emitted event =>
          refine (@ih { reply with
            events := reply.events ++ [event]
            sawStop := reply.sawStop || event == .messageStop }
              (stopped_push stopped event)).trans ?_
          exact (readAll_cons (parsePendingOutputBlock serde)
            (.emitted event) rfl reply.events _).symm
      | closed index =>
          rw [oneSlot_cons, List.foldlM_cons, cliTake]
          simp only [oneSlotStep]
          cases kept : reply.pendingTool with
          | none =>
              have untouched : reply.finishTool serde = .ok reply := by
                rw [Reply.finishTool, kept]
              rw [untouched]
              have later := ih stopped
              rw [kept] at later
              exact later
          | some tool =>
              rw [finishTool_eq serde kept]
              cases parse : parsePendingOutputBlock serde tool with
              | error error =>
                  show Except.error error = _
                  simp only [Option.toList_some, List.map_cons, List.cons_append, readAll, readOut,
                    parse]
                  rfl
              | ok event =>
                  have pushed := stopped_push stopped event
                  rw [cli_parsed_not_stop serde parse, Bool.or_false] at pushed
                  refine (@ih { reply with
                    events := reply.events ++ [event]
                    pendingTool := none } pushed).trans ?_
                  exact (readAll_cons (parsePendingOutputBlock serde)
                    (.value tool) parse reply.events _).symm

theorem stream_eq (events : List StreamEvent) (broken : Option String)
    (sendMessage : Except String MessageResponse) :
    stream serde (deliver events broken) sendMessage =
      conclude speaks broken (askAgain (responseToEvents serde) sendMessage)
        (readAll (parsePendingOutputBlock serde)
          (oneSlot feedInput none (pieces serde events))) := by
  have run := @cliTake_run serde (pieces serde events) {} rfl
  rw [stream.eq_def, ingestAll_eq]
  cases read : readAll (parsePendingOutputBlock serde)
      (oneSlot feedInput none (pieces serde events)) with
  | error error =>
      cases ran : (pieces serde events).foldlM (cliTake serde) {} with
      | ok last => simp [read, ran, Except.map] at run
      | error failed =>
          simp only [read, ran, Except.map, Except.error.injEq] at run
          rw [run]
          rfl
  | ok more =>
      cases ran : (pieces serde events).foldlM (cliTake serde) {} with
      | error failed => simp [read, ran, Except.map] at run
      | ok last =>
          simp only [read, ran, Except.map, gained, List.nil_append, Except.ok.injEq,
            Prod.mk.injEq] at run
          cases broken with
          | some error => rfl
          | none =>
              rw [← closing_eq]
              simp only [run]
              rfl

/-! ## Well-formed streams -/

/-- What an event does at a block index.  The blocks of a message start are taken
to start at index `0`, where the sub-agents' client puts them. -/
inductive Mark where
  | start (block : OutputContentBlock)
  | delta (delta : ContentBlockDelta)
  | stop
  deriving DecidableEq, Repr

def marks (index : UInt32) : StreamEvent → List Mark
  | .messageStart message => if index = 0 then message.content.map .start else []
  | .contentBlockStart k block => if k = index then [.start block] else []
  | .contentBlockDelta k delta => if k = index then [.delta delta] else []
  | .contentBlockStop k => if k = index then [.stop] else []
  | .messageDelta .. | .messageStop => []

/-- A block index is unused, or started once and stopped at most once with its
deltas between; it is not stopped when the stream is cut off before. -/
def WellFormed (events : List StreamEvent) : Prop :=
  ∀ index, events.flatMap (marks index) = [] ∨
    ∃ (block : OutputContentBlock) (deltas : List ContentBlockDelta) (stops : List Mark),
      events.flatMap (marks index) = .start block :: deltas.map .delta ++ stops ∧
      (stops = [] ∨ stops = [.stop])

def markPieces (index : UInt32) : Mark → List ReplyPiece
  | .start (.toolUse id name input) =>
      [.opened index ⟨id, name, if input.isEmptyObject then "" else serde.toText input⟩]
  | .delta (.inputJsonDelta partialJson) => [.fed index partialJson]
  | .stop => [.closed index]
  | _ => []

theorem under_append (index : UInt32) (xs ys : List ReplyPiece) :
    Demultiplex.under index (xs ++ ys) = Demultiplex.under index xs ++ Demultiplex.under index ys :=
  List.filter_append ..

theorem under_texts (index : UInt32) (text : String) :
    Demultiplex.under index ((textEvents text).map (.emitted : AssistantEvent → ReplyPiece)) = [] := by
  by_cases empty : text = ""
  · simp [textEvents, empty, Demultiplex.under]
  · simp [textEvents, empty, Demultiplex.under, Piece.key?]

theorem under_start (index k : UInt32) (block : OutputContentBlock) :
    Demultiplex.under index (startPieces serde k block) =
      if k = index then markPieces serde index (.start block) else [] := by
  cases block with
  | text text => simp [startPieces, under_texts, markPieces]
  | toolUse id name input =>
      by_cases same : k = index
      · simp [startPieces, Demultiplex.under, Piece.key?, markPieces, same]
      · simp [startPieces, Demultiplex.under, Piece.key?, same]
  | thinking thinking signature => simp [startPieces, Demultiplex.under, markPieces]
  | redactedThinking data => simp [startPieces, Demultiplex.under, markPieces]

theorem under_event (index : UInt32) (event : StreamEvent) :
    Demultiplex.under index (eventPieces serde event) = (marks index event).flatMap (markPieces serde index) := by
  cases event with
  | messageStart message =>
      rw [eventPieces, marks]
      induction message.content with
      | nil => simp [Demultiplex.under]
      | cons block blocks ih =>
          rw [List.flatMap_cons, under_append, ih, under_start]
          by_cases zero : index = 0
          · simp [zero]
          · simp [zero, Ne.symm zero]
  | contentBlockStart k block =>
      rw [eventPieces, under_start, marks]
      by_cases same : k = index
      · simp [same]
      · simp [same]
  | contentBlockDelta k delta =>
      cases delta with
      | inputJsonDelta text =>
          by_cases same : k = index
          · simp [eventPieces, marks, same, markPieces, Demultiplex.under, Piece.key?]
          · simp [eventPieces, marks, same, Demultiplex.under, Piece.key?]
      | textDelta text =>
          by_cases same : k = index
          · simp [eventPieces, marks, same, markPieces, under_texts]
          · simp [eventPieces, marks, same, under_texts]
      | thinkingDelta text =>
          by_cases same : k = index
          · simp [eventPieces, marks, same, markPieces, Demultiplex.under]
          · simp [eventPieces, marks, same, Demultiplex.under]
      | signatureDelta text =>
          by_cases same : k = index
          · simp [eventPieces, marks, same, markPieces, Demultiplex.under]
          · simp [eventPieces, marks, same, Demultiplex.under]
  | contentBlockStop k =>
      by_cases same : k = index
      · simp [eventPieces, marks, same, markPieces, Demultiplex.under, Piece.key?]
      · simp [eventPieces, marks, same, Demultiplex.under, Piece.key?]
  | messageDelta delta usage => simp [eventPieces, marks, Demultiplex.under, Piece.key?]
  | messageStop => simp [eventPieces, marks, Demultiplex.under, Piece.key?]

theorem under_pieces (index : UInt32) (events : List StreamEvent) :
    Demultiplex.under index (pieces serde events) =
      (events.flatMap (marks index)).flatMap (markPieces serde index) := by
  induction events with
  | nil => rfl
  | cons event events ih =>
      rw [show pieces serde (event :: events) = eventPieces serde event ++ pieces serde events from
        List.flatMap_cons, under_append, ih, under_event, List.flatMap_cons, List.flatMap_append]

def inputTexts (deltas : List ContentBlockDelta) : List String :=
  deltas.filterMap fun
    | .inputJsonDelta partialJson => some partialJson
    | _ => none

theorem delta_pieces (index : UInt32) (deltas : List ContentBlockDelta) :
    (deltas.map Mark.delta).flatMap (markPieces serde index) =
      (inputTexts deltas).map (.fed index) := by
  induction deltas with
  | nil => rfl
  | cons delta deltas ih =>
      rw [List.map_cons, List.flatMap_cons, ih]
      cases delta <;> rfl

theorem WellFormed.tidy {events : List StreamEvent} (wellFormed : WellFormed events)
    (index : UInt32) : Tidy index (pieces serde events) := by
  obtain unused | ⟨block, deltas, stops, used, ends⟩ := wellFormed index
  · exact ⟨[], [], [], by rw [under_pieces, unused]; rfl, .inl rfl, .inl rfl⟩
  · refine ⟨markPieces serde index (.start block), stops.flatMap (markPieces serde index),
      inputTexts deltas, ?_, ?_, ?_⟩
    · rw [under_pieces, used, List.flatMap_append, List.flatMap_cons, delta_pieces]
    · cases block with
      | toolUse id name input => exact .inr ⟨_, rfl⟩
      | text text => exact .inl rfl
      | thinking thinking signature => exact .inl rfl
      | redactedThinking data => exact .inl rfl
    · obtain rfl | rfl := ends
      · exact .inl rfl
      · exact .inr rfl

/-- The tool calls started and stopped, in the order of their stops, each with its
own id, its own name and the concatenation of its own input. -/
def completedCalls (events : List StreamEvent) : List PendingTool :=
  completed feedInput (pieces serde events)

/-! ## When the consumers agree -/

/-- The user-input calls up to the first that cannot be read are read alike. -/
def ReadAlike : List PendingTool → Prop
  | [] => True
  | call :: calls =>
      (call.name = requestUserInputToolName →
        parseRequestUserInputRequest serde call.id call.input =
          Tools.parseRequestUserInputRequest serde call.id call.input) ∧
      ((parsePendingOutputBlock serde call).toOption.isSome → ReadAlike calls)

/-- Pieces on which both clients keep a stream that is cut off: text, or its end. -/
def lasting : ReplyPiece → Bool
  | .emitted (.textDelta _) => true
  | .emitted .messageStop => true
  | _ => false

/-- The three places where the consumers differ are avoided. -/
structure Straight (events : List StreamEvent) (broken : Option String) : Prop where
  orderly : Orderly (fun text => decide (text = "")) (pieces serde events)
  alike : ReadAlike serde (completedCalls serde events)
  kept : broken = none →
    (∀ call ∈ completedCalls serde events, call.name = requestUserInputToolName) →
    completedCalls serde events = [] ∨ (pieces serde events).any lasting = true

/-- The same result whatever the provider answers when asked again, or both ask
again. -/
def SameOutcome (received : List (Except String StreamEvent)) : Prop :=
  (∃ result, ∀ sendMessage, stream serde received sendMessage = result ∧
    Tools.stream serde received sendMessage = result) ∨
  ∀ sendMessage,
    stream serde received sendMessage = askAgain (responseToEvents serde) sendMessage ∧
    Tools.stream serde received sendMessage = askAgain (Tools.responseToEvents serde) sendMessage

def isCall : AssistantEvent → Bool
  | .toolUse .. | .requestUserInput _ => true
  | .textDelta _ | .usage _ | .messageStop => false

theorem pieces_orderly {events : List StreamEvent}
    (orderly : Orderly (fun text => decide (text = "")) (pieces serde events)) :
    oneSlot feedInput none (pieces serde events) =
      byKey feedInput (fun _ => none) (pieces serde events) := by
  refine oneSlot_eq_byKey feedInput (fun text => decide (text = "")) ?_ orderly
  intro tool text empty
  rw [of_decide_eq_true empty, feedInput, String.append_empty]

theorem parse_alike {call : PendingTool}
    (alike : call.name = requestUserInputToolName →
      parseRequestUserInputRequest serde call.id call.input =
        Tools.parseRequestUserInputRequest serde call.id call.input) :
    parsePendingOutputBlock serde call = Tools.parsePendingOutputBlock serde call := by
  rw [parsePendingOutputBlock, Tools.parsePendingOutputBlock]
  by_cases request : call.name = requestUserInputToolName
  · rw [if_pos request, if_pos request, alike request]
  · rw [if_neg request, if_neg request]

theorem readAll_alike (outs : List ReplyOut)
    (alike : ReadAlike serde (outs.filterMap Out.value?)) :
    readAll (parsePendingOutputBlock serde) outs =
      readAll (Tools.parsePendingOutputBlock serde) outs := by
  induction outs with
  | nil => rfl
  | cons out outs ih =>
      cases out with
      | emitted event => rw [readAll, readAll, readOut, readOut, ih alike]
      | value call =>
          obtain ⟨same, later⟩ := alike
          rw [readAll, readAll, readOut, readOut, ← parse_alike serde same]
          cases parse : parsePendingOutputBlock serde call with
          | error error => rfl
          | ok event => rw [ih (later (by rw [parse]; rfl))]

/-- The events read are those of the outs, one by one. -/
theorem readAll_events {parse : PendingTool → Except RuntimeError AssistantEvent}
    {outs : List ReplyOut} {events : List AssistantEvent} (read : readAll parse outs = .ok events) :
    List.Forall₂ (fun out event => readOut parse out = .ok event) outs events := by
  induction outs generalizing events with
  | nil =>
      cases read
      exact .nil
  | cons out outs ih =>
      rw [readAll] at read
      cases here : readOut parse out with
      | error error => simp [here] at read
      | ok event =>
          cases rest : readAll parse outs with
          | error error => simp [here, rest, Except.map] at read
          | ok more =>
              simp only [here, rest, Except.map, Except.ok.injEq] at read
              rw [← read]
              exact .cons here (ih rest)

/-- What a stream itself emits: texts that are not empty, usages and the stop. -/
def plain : AssistantEvent → Bool
  | .textDelta text => text ≠ ""
  | .usage _ | .messageStop => true
  | .toolUse .. | .requestUserInput _ => false

theorem plain_texts {text : String} {event : AssistantEvent} (said : event ∈ textEvents text) :
    plain event = true := by
  by_cases empty : text = ""
  · simp [textEvents, empty] at said
  · simp only [textEvents, empty, if_false, List.mem_singleton] at said
    simp [said, plain, empty]

theorem plain_start {index : UInt32} {block : OutputContentBlock} {event : AssistantEvent}
    (emitted : .emitted event ∈ startPieces serde index block) : plain event = true := by
  cases block with
  | text text =>
      obtain ⟨said, member, same⟩ := List.mem_map.1 emitted
      cases same
      exact plain_texts member
  | toolUse id name input => simp [startPieces] at emitted
  | thinking thinking signature => simp [startPieces] at emitted
  | redactedThinking data => simp [startPieces] at emitted

theorem plain_pieces {events : List StreamEvent} {event : AssistantEvent}
    (emitted : .emitted event ∈ pieces serde events) : plain event = true := by
  obtain ⟨source, -, emitted⟩ := List.mem_flatMap.1 emitted
  cases source with
  | messageStart message =>
      obtain ⟨block, -, emitted⟩ := List.mem_flatMap.1 emitted
      exact plain_start serde emitted
  | contentBlockStart index block => exact plain_start serde emitted
  | contentBlockDelta index delta =>
      cases delta with
      | textDelta text =>
          obtain ⟨said, member, same⟩ := List.mem_map.1 emitted
          cases same
          exact plain_texts member
      | inputJsonDelta text => simp [eventPieces] at emitted
      | thinkingDelta text => simp [eventPieces] at emitted
      | signatureDelta text => simp [eventPieces] at emitted
  | contentBlockStop index => simp [eventPieces] at emitted
  | messageDelta delta usage =>
      simp only [eventPieces, List.mem_singleton, Piece.emitted.injEq] at emitted
      rw [emitted]
      rfl
  | messageStop =>
      simp only [eventPieces, List.mem_singleton, Piece.emitted.injEq] at emitted
      rw [emitted]
      rfl

theorem parsed_isCall {call : PendingTool} {event : AssistantEvent}
    (parsed : parsePendingOutputBlock serde call = .ok event) : isCall event = true := by
  rw [parsePendingOutputBlock] at parsed
  split at parsed
  · cases payload : parseRequestUserInputRequest serde call.id call.input with
    | error error => simp [payload, Except.map] at parsed
    | ok request =>
        simp only [payload, Except.map, Except.ok.injEq] at parsed
        rw [← parsed]
        rfl
  · cases parsed
    rfl

theorem plain_not_call {event : AssistantEvent} (said : plain event = true) :
    isCall event = false := by
  cases event <;> first | rfl | cases said

/-- The calls among the events read are the values among the outs. -/
theorem calls_read {outs : List ReplyOut} {events : List AssistantEvent}
    (said : ∀ event, .emitted event ∈ outs → plain event = true)
    (read : List.Forall₂ (fun out event => readOut (parsePendingOutputBlock serde) out = .ok event)
      outs events) :
    List.Forall₂ (fun call event => parsePendingOutputBlock serde call = .ok event)
      (outs.filterMap Out.value?) (events.filter isCall) := by
  induction read with
  | nil => exact .nil
  | @cons out event outs events here rest ih =>
      have ih := ih fun event member => said event (List.mem_cons_of_mem _ member)
      cases out with
      | emitted other =>
          obtain rfl : other = event := Except.ok.inj here
          rw [List.filter_cons_of_neg (by
            rw [plain_not_call (said other List.mem_cons_self)]
            exact Bool.false_ne_true)]
          exact ih
      | value call =>
          rw [List.filter_cons_of_pos (parsed_isCall serde here)]
          exact .cons here ih

theorem exists_read {α β : Type} {relation : α → β → Prop} {xs : List α} {ys : List β}
    (related : List.Forall₂ relation xs ys) {x : α} (member : x ∈ xs) : ∃ y ∈ ys, relation x y := by
  induction related with
  | nil => cases member
  | @cons first y xs ys here rest ih =>
      obtain rfl | later := List.mem_cons.1 member
      · exact ⟨y, List.mem_cons_self, here⟩
      · obtain ⟨z, found, holds⟩ := ih later
        exact ⟨z, List.mem_cons_of_mem _ found, holds⟩

theorem tools_speaks {event : AssistantEvent} (spoken : speaks event = true) :
    Tools.speaks event = true := by
  cases event with
  | textDelta text => exact spoken
  | toolUse id name input => rfl
  | _ => cases spoken

/-- Both clients keep the same streams when they are cut off. -/
theorem closing_alike {outs : List ReplyOut} {events : List AssistantEvent}
    (said : ∀ event, .emitted event ∈ outs → plain event = true)
    (read : List.Forall₂ (fun out event => readOut (parsePendingOutputBlock serde) out = .ok event)
      outs events)
    (kept : (∀ call ∈ outs.filterMap Out.value?, call.name = requestUserInputToolName) →
      outs.filterMap Out.value? = [] ∨
        ∃ event, .emitted event ∈ outs ∧ (event = .messageStop ∨ speaks event = true)) :
    closing speaks events = closing Tools.speaks events := by
  rw [closing, closing]
  by_cases stop : AssistantEvent.messageStop ∈ events
  · rw [if_pos stop, if_pos stop]
  rw [if_neg stop, if_neg stop]
  suffices same : events.any speaks = events.any Tools.speaks by rw [same]
  have calls := calls_read serde said read
  rw [Bool.eq_iff_iff, List.any_eq_true, List.any_eq_true]
  constructor
  · rintro ⟨event, member, spoken⟩
    exact ⟨event, member, tools_speaks spoken⟩
  · rintro ⟨event, member, spoken⟩
    by_contra silent
    -- With no text and no other tool call, what speaks is a user-input request.
    have asked : isCall event = true := by
      cases event with
      | textDelta text => exact absurd ⟨_, member, spoken⟩ silent
      | toolUse id name input => rfl
      | requestUserInput request => rfl
      | usage usage => cases spoken
      | messageStop => cases spoken
    have requests : ∀ call ∈ outs.filterMap Out.value?, call.name = requestUserInputToolName := by
      intro call completed
      obtain ⟨event, found, parsed⟩ := exists_read calls completed
      by_contra other
      rw [parsePendingOutputBlock, if_neg other] at parsed
      cases parsed
      exact silent ⟨_, List.mem_of_mem_filter found, rfl⟩
    obtain none | ⟨out, emitted, lasts⟩ := kept requests
    · rw [none] at calls
      have empty := List.forall₂_nil_left_iff.1 calls
      exact List.not_mem_nil (empty ▸ List.mem_filter.2 ⟨member, asked⟩)
    · obtain ⟨event, found, same⟩ := exists_read read emitted
      obtain rfl : out = event := Except.ok.inj same
      obtain rfl | spoken := lasts
      · exact stop found
      · exact silent ⟨_, found, spoken⟩

theorem lasting_kept {events : List StreamEvent}
    (lasts : (pieces serde events).any lasting = true) :
    ∃ event, .emitted event ∈ pieces serde events ∧ (event = .messageStop ∨ speaks event = true) := by
  obtain ⟨piece, member, lasts⟩ := List.any_eq_true.1 lasts
  cases piece with
  | opened index tool => cases lasts
  | fed index text => cases lasts
  | closed index => cases lasts
  | emitted event =>
      refine ⟨event, member, ?_⟩
      cases event with
      | textDelta text => exact .inr (plain_pieces serde member)
      | messageStop => exact .inl rfl
      | toolUse id name input => cases lasts
      | requestUserInput request => cases lasts
      | usage usage => cases lasts

/-- Closing adds no call. -/
theorem closing_calls {spoken : AssistantEvent → Bool} {events replied : List AssistantEvent}
    (closed : closing spoken events = some replied) :
    replied.filter isCall = events.filter isCall := by
  rw [closing] at closed
  split at closed
  · cases closed
    rfl
  · split at closed
    · cases closed
      rw [List.filter_append]
      exact List.append_nil _
    · cases closed

/-- Two clients that close a reply alike have the same outcome. -/
theorem same_of_closed {received : List (Except String StreamEvent)}
    {closed : Option (List AssistantEvent)}
    (cli : ∀ sendMessage, stream serde received sendMessage =
      closed.elim (askAgain (responseToEvents serde) sendMessage) .ok)
    (tools : ∀ sendMessage, Tools.stream serde received sendMessage =
      closed.elim (askAgain (Tools.responseToEvents serde) sendMessage) .ok) :
    SameOutcome serde received ∧
    ∀ replied, (∀ sendMessage, stream serde received sendMessage = .ok replied) →
      closed = some replied := by
  cases closed with
  | none =>
      refine ⟨.inr fun sendMessage => ⟨cli sendMessage, tools sendMessage⟩, ?_⟩
      intro replied result
      cases (cli (.error "")).symm.trans (result _)
  | some events =>
      refine ⟨.inl ⟨.ok events, fun sendMessage => ⟨cli sendMessage, tools sendMessage⟩⟩, ?_⟩
      intro replied result
      rw [Except.ok.inj ((cli (.error "")).symm.trans (result _))]

theorem conclude_ok (spoken : AssistantEvent → Bool) (events : List AssistantEvent)
    (fallBack : Except RuntimeError (List AssistantEvent)) :
    conclude spoken none fallBack (.ok events) = (closing spoken events).elim fallBack .ok := by
  rw [conclude]
  cases closing spoken events <;> rfl

/-- A parser that reads no payload. -/
def blankSerde : ReplySerde where
  fromStr _ := .error "EOF while parsing a value at line 1 column 0"
  toText _ := "{}"
  payloadFromStr _ := .error "EOF while parsing a value at line 1 column 0"

/-- A text block and a tool call; the text is stopped first, then the tool. -/
def textAndCall : List StreamEvent :=
  [.contentBlockStart 0 (.text ""), .contentBlockDelta 0 (.textDelta "Reading."),
    .contentBlockStart 1 (.toolUse "call_1" "read_file" (.object [])),
    .contentBlockDelta 1 (.inputJsonDelta "{}"), .contentBlockStop 0, .contentBlockStop 1,
    .messageStop]

/-- Two parallel tool calls. -/
def parallelCalls : List StreamEvent :=
  [.contentBlockStart 1 (.toolUse "call_1" "read_file" (.object [])),
    .contentBlockDelta 1 (.inputJsonDelta "{}"),
    .contentBlockStart 2 (.toolUse "call_2" "glob_search" (.object [])),
    .contentBlockDelta 2 (.inputJsonDelta "{}"), .contentBlockStop 1, .contentBlockStop 2,
    .messageStop]

theorem wellFormed_of_used {events : List StreamEvent} (used : List UInt32)
    (others : ∀ event ∈ events, event.blockIndex?.all (used.contains ·) = true ∧
      ∀ message, event ≠ .messageStart message)
    (each : ∀ index ∈ used, ∃ (block : OutputContentBlock) (deltas : List ContentBlockDelta)
      (stops : List Mark), events.flatMap (marks index) = .start block :: deltas.map .delta ++ stops ∧
        (stops = [] ∨ stops = [.stop])) :
    WellFormed events := by
  intro index
  by_cases member : index ∈ used
  · exact .inr (each index member)
  · refine .inl (List.flatMap_eq_nil_iff.2 fun event held => ?_)
    obtain ⟨own, starts⟩ := others event held
    have other : ∀ k, event.blockIndex? = some k → k ≠ index := by
      rintro k here rfl
      rw [here] at own
      exact member (List.contains_iff_mem.1 own)
    cases event with
    | messageStart message => exact absurd rfl (starts message)
    | contentBlockStart k block => exact if_neg (other k rfl)
    | contentBlockDelta k delta => exact if_neg (other k rfl)
    | contentBlockStop k => exact if_neg (other k rfl)
    | messageDelta delta usage => rfl
    | messageStop => rfl

theorem wellFormed_textAndCall : WellFormed textAndCall := by
  refine wellFormed_of_used [0, 1] ?_ ?_
  · simp [textAndCall, StreamEvent.blockIndex?]
  · rintro index used
    obtain rfl | rfl : index = 0 ∨ index = 1 := by simpa using used
    · exact ⟨.text "", [.textDelta "Reading."], [.stop], rfl, .inr rfl⟩
    · exact ⟨.toolUse "call_1" "read_file" (.object []), [.inputJsonDelta "{}"], [.stop], rfl, .inr rfl⟩

end Openyak.Cli
