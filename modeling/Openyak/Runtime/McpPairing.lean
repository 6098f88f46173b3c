/-
# Runtime.McpPairing -- which request an accepted response answers

A response `Belongs` if the frame it was read from is the server's answer to the request it
was accepted for, and carries its id.  Nothing checks that: the manager takes the frame
that is next.  It is the right one exactly as long as the read is `Clean`, that is no frame
read from the process so far was a message of the server's own.

The invariant (`World.Sound`) says of every process that it answers in order and was read
one frame a request, whatever operation failed on the way.
-/
import Openyak.Theory.Pairing
import Openyak.Theory.ContentLength
import Openyak.Runtime.McpKeeps

namespace Openyak.Runtime.Mcp

open Openyak.Theory Openyak.Theory.ByteStream
open Openyak.Theory.Text (stripPrefix_append trim)

set_option autoImplicit false

/-! ## Frames read back -/

theorem encodeFrame_eq (payload rest : List UInt8) :
    encodeFrame payload ++ rest =
      ascii (lengthLine payload.length ++ ['\n']) ++ (ascii (['\r'] ++ ['\n']) ++ (payload ++ rest)) :=
  framed_eq payload rest

/-- One header that names a length. -/
theorem readHeaders_length (lines : Nat) (contentLength : Option Nat) {length : Nat}
    (fits : length < 2 ^ 64) (rest : List UInt8) :
    readHeaders (lines + 1) contentLength (ascii (lengthLine length ++ ['\n']) ++ rest) =
      readHeaders lines (some length) rest := by
  obtain ⟨low, whole⟩ := lengthLine_ascii length
  obtain ⟨taken, decoded⟩ := takeLine_ascii low whole rest
  have some_ : ascii (lengthLine length ++ ['\n']) ≠ [] := by
    rw [ascii_append]
    exact List.append_ne_nil_of_right_ne_nil _ (by decide)
  have notEnd : lengthLine length ++ ['\n'] ≠ ['\r', '\n'] := by
    rw [lengthLine]
    exact fun same => absurd (List.cons.inj same).1 (by decide)
  have strip : Text.stripPrefix "Content-Length:" (lengthLine length ++ ['\n']) =
      some (' ' :: (Nat.toDigits 10 length ++ ['\r', '\n'])) := by
    rw [lengthLine, List.append_assoc, ← toList_lengthName, stripPrefix_append]
    simp
  have value : (UInt64.ofNat length).toNat = length := by
    rw [UInt64.toNat_ofNat', Nat.mod_eq_of_lt fits]
  rw [readHeaders, taken]
  dsimp only
  rw [if_neg some_, decoded]
  dsimp only
  rw [if_neg notEnd, strip]
  dsimp only
  have value_ : trim ([' '] ++ (Nat.toDigits 10 length ++ ['\r', '\n'])) = Nat.toDigits 10 length :=
    trim_numeral length (by simp [Text.isWhitespace])
  rw [← List.singleton_append, value_, Decimal.parseU64_toDigits fits]
  dsimp only
  rw [value]

/-- The empty line ends the headers. -/
theorem readHeaders_end (lines : Nat) (contentLength : Option Nat) (rest : List UInt8) :
    readHeaders (lines + 1) contentLength (ascii (['\r'] ++ ['\n']) ++ rest) =
      (.ok contentLength, rest) := by
  have low : ∀ c ∈ ['\r'], c.toNat < 128 := List.forall_mem_singleton.2 (by decide)
  obtain ⟨taken, decoded⟩ := takeLine_ascii low (by decide) rest
  rw [readHeaders, taken]
  dsimp only
  rw [if_neg (by decide), decoded]
  exact if_pos rfl

/-- **A frame is read back from the front of the stream.** -/
theorem readFrame_encodeFrame (payload : Payload) (rest : List UInt8) :
    readFrame (encodeFrame payload.bytes ++ rest) = (.ok payload.bytes, rest) := by
  have long : ∃ lines, (encodeFrame payload.bytes ++ rest).length + 1 = lines + 2 := by
    refine ⟨(encodeFrame payload.bytes ++ rest).length - 1, ?_⟩
    have some_ : 0 < (encodeFrame payload.bytes ++ rest).length := by
      rw [encodeFrame_eq, ascii_append, List.length_append, List.length_append]
      have newline_ : (ascii ['\n']).length = 1 := rfl
      omega
    omega
  obtain ⟨lines, long⟩ := long
  rw [readFrame, long, encodeFrame_eq, readHeaders_length _ _ payload.fits, readHeaders_end]
  dsimp only
  rw [takeExact_append]

/-! ## A response that belongs -/

/-- The frame a response was read from: the last one read. -/
def Accepted.frame? (accepted : Accepted) : Option Frame := accepted.read.getLast?

/-- It is the answer to the very request it was accepted for, with its id. -/
def Accepted.Belongs (accepted : Accepted) : Prop :=
  ∃ frame, accepted.frame? = some frame ∧ frame.answers = some accepted.sent ∧
    accepted.id = accepted.sent.request.id

/-- No frame read so far was a message of the server's own. -/
def Accepted.Clean (accepted : Accepted) : Prop :=
  ∀ frame ∈ accepted.read, frame.answers ≠ none

theorem Accepted.belongs_iff_clean {accepted : Accepted} {frame : Frame}
    (isLast : accepted.frame? = some frame)
    (pairs : frame.answers = some accepted.sent ↔ accepted.Clean)
    (sameId : frame.answers = some accepted.sent → accepted.id = accepted.sent.request.id) :
    accepted.Belongs ↔ accepted.Clean := by
  constructor
  · rintro ⟨other, found, isAnswer, -⟩
    rw [isLast] at found
    cases found
    exact pairs.1 isAnswer
  · intro clean
    have isAnswer := pairs.2 clean
    exact ⟨frame, isLast, isAnswer, sameId isAnswer⟩

/-- Servers that answer a request with its id. -/
def Conforming (serde : McpSerde) (environment : Nat → Turn) : Prop :=
  ∀ clock message payload, (environment clock).answer message = some payload →
    serde.Answers message payload.bytes

/-! ## The invariant -/

def McpStdioProcess.channel (process : McpStdioProcess) : Channel Sent :=
  ⟨process.received, process.frames.map Frame.answers, process.taken, process.closed⟩

/-- What holds of a process when so many requests were sent in all. -/
structure McpStdioProcess.Sound (serde : McpSerde) (serial : Nat) (process : McpStdioProcess) :
    Prop where
  inOrder : process.channel.InOrder
  stdout : process.stdout =
    (process.frames.drop process.taken).flatMap fun frame => encodeFrame frame.payload.bytes
  earlier : ∀ sent ∈ process.received, sent.serial < serial
  answers : ∀ frame ∈ process.frames, ∀ sent, frame.answers = some sent →
    serde.Answers sent.request frame.payload.bytes

structure World.Sound (serde : McpSerde) (world : World) : Prop where
  processes : ∀ name server process, world.manager.servers name = some server →
    server.process = some process → process.Sound serde world.sent.length
  accepted : ∀ accepted ∈ world.accepted, accepted.Belongs ↔ accepted.Clean

section Processes

variable {serde : McpSerde} {serial : Nat} {process : McpStdioProcess}

theorem McpStdioProcess.Sound.mono {later : Nat} (sound : process.Sound serde serial)
    (le : serial ≤ later) : process.Sound serde later :=
  ⟨sound.inOrder, sound.stdout,
    fun sent member => Nat.lt_of_lt_of_le (sound.earlier sent member) le, sound.answers⟩

/-- A process that was just started. -/
theorem McpStdioProcess.Sound.fresh : McpStdioProcess.Sound serde serial {} :=
  ⟨Channel.InOrder.empty, rfl, fun _ none_ => (by cases none_), fun _ none_ => (by cases none_)⟩

variable (turn : Turn) (sent : Sent)

theorem channel_hear (process : McpStdioProcess) : (process.hear turn sent).channel =
    process.channel.hear sent turn.own.length (turn.answer sent.request).isSome := by
  have own : (turn.own.map (Frame.mk none)).map Frame.answers =
      List.replicate turn.own.length none := by
    rw [List.map_map]
    exact List.map_const
  have closes : (turn.answer sent.request).isNone = !(turn.answer sent.request).isSome := by
    cases turn.answer sent.request <;> rfl
  have frames : (process.reply turn sent).map Frame.answers =
      process.channel.reply sent turn.own.length (turn.answer sent.request).isSome := by
    unfold McpStdioProcess.reply Channel.reply McpStdioProcess.channel
    dsimp only
    split
    · rfl
    · rw [List.map_append, own]
      cases turn.answer sent.request <;> rfl
  unfold McpStdioProcess.hear McpStdioProcess.channel Channel.hear
  dsimp only
  rw [List.map_append, frames, closes]
  rfl

variable {turn sent}

theorem hear_answers (answering : ∀ payload, turn.answer sent.request = some payload →
      serde.Answers sent.request payload.bytes) (sound : process.Sound serde serial) :
    ∀ frame ∈ (process.hear turn sent).frames, ∀ other, frame.answers = some other →
      serde.Answers other.request frame.payload.bytes := by
  intro frame member other isAnswer
  rcases List.mem_append.1 member with earlier | replied
  · exact sound.answers frame earlier other isAnswer
  · unfold McpStdioProcess.reply at replied
    split at replied
    · cases replied
    · rcases List.mem_append.1 replied with own | answered
      · obtain ⟨payload, -, rfl⟩ := List.mem_map.1 own
        cases isAnswer
      · rw [Option.mem_toList, Option.map_eq_some_iff] at answered
        obtain ⟨payload, given, rfl⟩ := answered
        cases isAnswer
        exact answering payload given

variable (turn) (sent)

theorem hear_stdout (sound : process.Sound serde serial) :
    (process.hear turn sent).stdout = ((process.hear turn sent).frames.drop process.taken).flatMap
      fun frame => encodeFrame frame.payload.bytes := by
  have bounded : process.taken ≤ (process.frames.map Frame.answers).length := sound.inOrder.bounded
  rw [List.length_map] at bounded
  show process.stdout ++ _ = ((process.frames ++ _).drop process.taken).flatMap _
  rw [List.drop_append_of_le_length bounded, List.flatMap_append, sound.stdout]

theorem hear_earlier (sound : process.Sound serde serial) (last : sent.serial = serial) :
    sent ∉ process.channel.received ∧
      ∀ other ∈ (process.hear turn sent).received, other.serial < serial + 1 := by
  constructor
  · intro again
    have before := sound.earlier sent again
    omega
  · intro other member
    rcases List.mem_append.1 member with earlier | isLast
    · have before := sound.earlier other earlier
      omega
    · rw [List.mem_singleton.1 isLast, last]
      omega

/-- **A request either finds no frame, or reads the one its number counts.** -/
theorem hear_read (sound : process.Sound serde serial) (last : sent.serial = serial)
    (answering : ∀ payload, turn.answer sent.request = some payload →
      serde.Answers sent.request payload.bytes) :
    (∃ error, readFrame (process.hear turn sent).stdout = (.error error, []) ∧
      McpStdioProcess.Sound serde (serial + 1) { process.hear turn sent with stdout := [] }) ∨
    ∃ frame rest, readFrame (process.hear turn sent).stdout = (.ok frame.payload.bytes, rest) ∧
      ((process.hear turn sent).frames.take (process.taken + 1)).getLast? = some frame ∧
      McpStdioProcess.Sound serde (serial + 1)
        { process.hear turn sent with stdout := rest, taken := process.taken + 1 } ∧
      (frame.answers = some sent ↔
        ∀ other ∈ (process.hear turn sent).frames.take (process.taken + 1),
          other.answers ≠ none) ∧
      (frame.answers = some sent → serde.Answers sent.request frame.payload.bytes) := by
  obtain ⟨fresh, earlier⟩ := hear_earlier turn sent sound last
  have answers := hear_answers answering sound
  have stdout := hear_stdout turn sent sound
  have channel := channel_hear turn sent process
  have written : (process.channel.hear sent turn.own.length
      (turn.answer sent.request).isSome).written =
      (process.hear turn sent).frames.map Frame.answers := by rw [← channel]; rfl
  by_cases something : process.taken < (process.hear turn sent).frames.length
  · right
    have more : process.channel.taken < (process.channel.hear sent turn.own.length
        (turn.answer sent.request).isSome).written.length := by
      rw [written, List.length_map]
      exact something
    obtain ⟨inOrder, counted⟩ := sound.inOrder.hear_take fresh more
    rw [List.drop_eq_getElem_cons something, List.flatMap_cons] at stdout
    have read := readFrame_encodeFrame (process.hear turn sent).frames[process.taken].payload
      (((process.hear turn sent).frames.drop (process.taken + 1)).flatMap
        fun frame => encodeFrame frame.payload.bytes)
    rw [← stdout] at read
    have isLast : ((process.hear turn sent).frames.take (process.taken + 1)).getLast? =
        some (process.hear turn sent).frames[process.taken] := by
      rw [List.take_add_one, List.getElem?_eq_getElem something, Option.toList_some,
        List.getLast?_concat]
    refine ⟨_, _, read, isLast, ⟨?_, rfl, earlier, answers⟩, ?_,
      answers _ (List.getElem_mem something) sent⟩
    · rw [← channel] at inOrder
      exact inOrder
    · have paired := inOrder.paired_iff process.channel.received sent rfl
        (congrArg (· + 1) counted)
      have taken : (process.channel.hear sent turn.own.length
          (turn.answer sent.request).isSome).take.written.take (process.taken + 1) =
          ((process.hear turn sent).frames.take (process.taken + 1)).map Frame.answers := by
        rw [List.map_take, ← written]
        rfl
      change ((process.channel.hear sent turn.own.length
        (turn.answer sent.request).isSome).take.written.take (process.taken + 1)).getLast? = _ ↔
        none ∉ (process.channel.hear sent turn.own.length
        (turn.answer sent.request).isSome).take.written.take (process.taken + 1) at paired
      rw [taken, List.getLast?_map, isLast, Option.map_some, Option.some_inj] at paired
      rw [paired, List.mem_map, not_exists]
      exact forall_congr' fun other => not_and
  · left
    have none_ : (process.channel.hear sent turn.own.length
        (turn.answer sent.request).isSome).written.length ≤ process.channel.taken := by
      rw [written, List.length_map]
      exact Nat.le_of_not_lt something
    have inOrder := sound.inOrder.hear_nothing fresh none_
    rw [← channel] at inOrder
    rw [List.drop_eq_nil_of_le (Nat.le_of_not_lt something)] at stdout
    rw [stdout]
    refine ⟨_, rfl, inOrder, ?_, earlier, answers⟩
    show [] = ((process.hear turn sent).frames.drop process.taken).flatMap _
    rw [List.drop_eq_nil_of_le (Nat.le_of_not_lt something)]
    rfl

end Processes

/-! ## Operations -/

section Operations

variable {serde : McpSerde} {environment : Nat → Turn} {world : World}

theorem World.Sound.setServer (sound : world.Sound serde) {name : String}
    {server : ManagedMcpServer}
    (kept : ∀ process, server.process = some process → process.Sound serde world.sent.length) :
    (world.setServer name server).Sound serde := by
  refine ⟨fun other standing process isThere holds => ?_, sound.accepted⟩
  by_cases same : other = name
  · subst same
    have replaced : some server = some standing := by
      rw [← isThere]
      exact (Function.update_self other (some server) world.manager.servers).symm
    cases replaced
    exact kept process holds
  · have before : world.manager.servers other = some standing := by
      rw [← isThere]
      exact (Function.update_of_ne same (some server) world.manager.servers).symm
    exact sound.processes other standing process before holds

/-- One request more. -/
theorem World.Sound.send (sound : world.Sound serde) (sent : Sent) (clock : Nat) :
    World.Sound serde { world with clock := clock, sent := world.sent ++ [sent] } := by
  refine ⟨fun name server process isThere holds => ?_, sound.accepted⟩
  refine (sound.processes name server process isThere holds).mono ?_
  rw [List.length_append]
  omega

/-- **What `McpStdioProcess::request` returns belongs to its request exactly if the read was
clean**, and the process stays in order however it ends. -/
theorem request_sound (conforming : Conforming serde environment) {α : Type}
    {decode : List UInt8 → Except String (JsonRpcResponse α)}
    (reads : serde.Reads decode) (serverName : String) (server : ManagedMcpServer) (process : McpStdioProcess)
    (message : JsonRpcRequest McpParams) :
    Action.Ensures (fun world => world.Sound serde ∧ process.Sound serde world.sent.length)
      (request environment decode serverName server process message)
      (fun result world => world.Sound serde ∧
        ∀ answer, result = .ok answer → (answer.accepted.Belongs ↔ answer.accepted.Clean)) := by
  rintro world ⟨sound, standing⟩
  have answering := conforming world.clock message
  unfold request
  dsimp only
  generalize isSent : Sent.mk world.sent.length serverName message = sent
  generalize environment world.clock = turn at *
  have serial : sent.serial = world.sent.length := by rw [← isSent]
  have asked : sent.request = message := by rw [← isSent]
  have tried := sound.send sent (world.clock + 1)
  have longer : (world.sent ++ [sent]).length = world.sent.length + 1 := List.length_append
  rw [← asked] at answering
  split
  · refine ⟨tried, fun answer same => ?_⟩
    cases same
  rcases hear_read turn sent standing serial answering with
    ⟨error, read, kept⟩ | ⟨frame, rest, read, isLast, kept, pairs, answered⟩
  · rw [read]
    refine ⟨tried.setServer fun other same => ?_, fun answer same => ?_⟩
    · cases same
      rw [longer]
      exact kept
    · cases same
  · rw [read]
    rw [← longer] at kept
    dsimp only
    split
    · refine ⟨tried.setServer fun other same => ?_, fun answer same => ?_⟩
      · cases same
        exact kept
      · cases same
    · rename_i response decoded
      refine ⟨tried.setServer fun other same => ?_, fun answer same => ?_⟩
      · cases same
        exact kept
      cases same
      exact Accepted.belongs_iff_clean isLast pairs fun isAnswer =>
        reads _ _ _ (answered isAnswer) decoded

theorem sound_kept (conforming : Conforming serde environment) :
    KeptRoutes serde environment (fun _ => True) (fun _ => True) (World.Sound serde)
      fun accepted => accepted.Belongs ↔ accepted.Clean where
  initializes := trivial
  lists _ := trivial
  requestId _ sound := ⟨sound.processes, sound.accepted⟩
  turn sound := ⟨sound.processes, sound.accepted⟩
  accept sound isRight := by
    refine ⟨sound.processes, fun other member => ?_⟩
    rcases List.mem_append.1 member with earlier | isLast
    · exact sound.accepted other earlier
    · rw [List.mem_singleton.1 isLast]
      exact isRight
  request _ reads sound isThere isProcess :=
    request_sound conforming reads _ _ _ _ _
      ⟨sound, sound.processes _ _ _ isThere isProcess⟩
  spawn sound _ _ := sound.setServer fun process same => by
    cases same
    exact McpStdioProcess.Sound.fresh
  ready sound isThere := sound.setServer fun process same =>
    sound.processes _ _ process isThere same
  names _ _ _ := trivial
  clear _ sound := ⟨sound.processes, sound.accepted⟩
  insert _ _ sound := ⟨sound.processes, sound.accepted⟩
  stop sound isThere isProcess := sound.setServer fun process same => by
    have before := sound.processes _ _ _ isThere isProcess
    cases same
    exact ⟨before.inOrder, before.stdout, before.earlier, before.answers⟩
  drop _ sound := sound.setServer nofun

end Operations

theorem fromServers_sound (serde : McpSerde) (servers : ServerConfigs) :
    World.Sound serde { manager := .fromServers servers } := by
  refine ⟨fun name server process isThere holds => ?_, List.forall_mem_nil _⟩
  have known : (if (name, McpTransport.stdio) ∈ servers.entries then some ({} : ManagedMcpServer)
      else none) = some server := isThere
  split at known
  · cases known
    cases holds
  · cases known

/-- **A response belongs to its request exactly as long as the server spoke only when it
was asked.**  Servers that answer every request once, in order and with its id, may write
messages of their own between two answers; whatever operations ran, and however they ended,
an accepted response is the answer to the request it was accepted for if and only if no
frame read from its process so far was such a message. -/
theorem accepted_belongs_iff {serde : McpSerde} {environment : Nat → Turn}
    (conforming : Conforming serde environment) (servers : ServerConfigs)
    (operations : List Operation) :
    ∀ accepted ∈ (afterOperations serde environment servers operations).accepted,
      accepted.Belongs ↔ accepted.Clean :=
  (afterOperations_holds (sound_kept conforming) (fun _ _ => trivial) servers
    (fromServers_sound serde servers) operations).accepted

/-! ## A server that says something first -/

/-- A text, cut where a `usize` would not count it. -/
def payloadOf (text : String) : Payload where
  bytes := (ascii text.toList).take (2 ^ 64 - 1)
  fits := by
    rw [List.length_take]
    omega

def initializeText : Payload :=
  payloadOf ("\x7b\"jsonrpc\":\"2.0\",\"id\":1,\"result\":\x7b\"protocolVersion\":\"2025-03-26\"," ++
    "\"capabilities\":\x7b\x7d,\"serverInfo\":\x7b\"name\":\"s\",\"version\":\"1\"\x7d\x7d\x7d")

def listText : Payload :=
  payloadOf ("\x7b\"jsonrpc\":\"2.0\",\"id\":2,\"result\":" ++
    "\x7b\"tools\":[\x7b\"name\":\"echo\"\x7d]\x7d\x7d")

def firstText : Payload :=
  payloadOf "\x7b\"jsonrpc\":\"2.0\",\"id\":3,\"result\":\x7b\x7d\x7d"

def secondText : Payload :=
  payloadOf "\x7b\"jsonrpc\":\"2.0\",\"id\":4,\"result\":\x7b\"isError\":true\x7d\x7d"

def notificationText : Payload :=
  payloadOf "\x7b\"jsonrpc\":\"2.0\",\"method\":\"notifications/tools/list_changed\"\x7d"

/-- The id in each of the four answers. -/
def idOf (bytes : List UInt8) : Option UInt64 :=
  if bytes = initializeText.bytes then some 1
  else if bytes = listText.bytes then some 2
  else if bytes = firstText.bytes then some 3
  else if bytes = secondText.bytes then some 4
  else none

/-- `serde_json` on these texts. -/
def chattySerde : McpSerde where
  initializeResponse bytes :=
    if idOf bytes = some 1 then
      .ok ⟨"2.0", .number 1, some ⟨"2025-03-26", .object [], ⟨"s", "1"⟩⟩, none⟩
    else .error "missing field `id`"
  listToolsResponse bytes :=
    if idOf bytes = some 2 then .ok ⟨"2.0", .number 2, some ⟨[{ name := "echo" }], none⟩, none⟩
    else .error "missing field `id`"
  toolCallResponse bytes :=
    if idOf bytes = some 3 then .ok ⟨"2.0", .number 3, some {}, none⟩
    else if idOf bytes = some 4 then
      .ok ⟨"2.0", .number 4, some { isError := some true }, none⟩
    else .error "missing field `id`"

def answerTo (id : UInt64) (payload : Payload) : JsonRpcRequest McpParams → Option Payload :=
  fun message => if message.id = .number id then some payload else none

/-- It is started, answers twice, and writes a notification before its third answer. -/
def chattyEnvironment : Nat → Turn
  | 1 => { answer := answerTo 1 initializeText }
  | 2 => { answer := answerTo 2 listText }
  | 3 => { own := [notificationText], answer := answerTo 3 firstText }
  | 4 => { answer := answerTo 4 secondText }
  | _ => {}

theorem chatty_answers {id : UInt64} {text payload : Payload} {message : JsonRpcRequest McpParams}
    (given : answerTo id text message = some payload) (isId : idOf text.bytes = some id) :
    chattySerde.Answers message payload.bytes := by
  unfold answerTo at given
  split at given
  · rename_i asked
    cases given
    refine ⟨fun response done => ?_, fun response done => ?_, fun response done => ?_⟩
    · unfold chattySerde at done
      simp only [isId] at done
      split at done
      · rename_i same
        cases same
        cases done
        exact asked.symm
      · cases done
    · unfold chattySerde at done
      simp only [isId] at done
      split at done
      · rename_i same
        cases same
        cases done
        exact asked.symm
      · cases done
    · unfold chattySerde at done
      simp only [isId] at done
      split at done
      · rename_i same
        cases same
        cases done
        exact asked.symm
      · split at done
        · rename_i same
          cases same
          cases done
          exact asked.symm
        · cases done
  · cases given

theorem length_payloadOf (chars : List Char) {length : Nat} (isLength : chars.length = length)
    (fits : length < 2 ^ 64) : (payloadOf (String.ofList chars)).bytes.length = length := by
  show (List.take (2 ^ 64 - 1) (ascii (String.ofList chars).toList)).length = length
  rw [String.toList_ofList, List.length_take, ascii, List.length_map]
  omega

theorem length_payloadOf_append (chars more : List Char) {length : Nat}
    (isLength : (chars ++ more).length = length) (fits : length < 2 ^ 64) :
    (payloadOf (String.ofList chars ++ String.ofList more)).bytes.length = length := by
  rw [← String.ofList_append]
  exact length_payloadOf _ isLength fits

/-- The four answers differ in length. -/
theorem answer_lengths : initializeText.bytes.length = 124 ∧ listText.bytes.length = 61 ∧
    firstText.bytes.length = 36 ∧ secondText.bytes.length = 50 :=
  ⟨length_payloadOf_append _ _ (by simp) (by decide), length_payloadOf_append _ _ (by simp) (by decide),
    length_payloadOf _ (by simp) (by decide), length_payloadOf _ (by simp) (by decide)⟩

theorem bytes_ne {a b : Payload} (lengths : a.bytes.length ≠ b.bytes.length) :
    a.bytes ≠ b.bytes := fun same => lengths (congrArg List.length same)

theorem idOf_texts : idOf initializeText.bytes = some 1 ∧ idOf listText.bytes = some 2 ∧
    idOf firstText.bytes = some 3 ∧ idOf secondText.bytes = some 4 := by
  obtain ⟨initialize_, list, first, second⟩ := answer_lengths
  refine ⟨if_pos rfl, ?_, ?_, ?_⟩
  · rw [idOf, if_neg (bytes_ne (by omega)), if_pos rfl]
  · rw [idOf, if_neg (bytes_ne (by omega)), if_neg (bytes_ne (by omega)), if_pos rfl]
  · rw [idOf, if_neg (bytes_ne (by omega)), if_neg (bytes_ne (by omega)),
      if_neg (bytes_ne (by omega)), if_pos rfl]

theorem chatty_conforming : Conforming chattySerde chattyEnvironment := by
  intro clock message payload given
  unfold chattyEnvironment at given
  split at given
  · exact chatty_answers given idOf_texts.1
  · exact chatty_answers given idOf_texts.2.1
  · exact chatty_answers given idOf_texts.2.2.1
  · exact chatty_answers given idOf_texts.2.2.2
  · cases given

def oneServer : ServerConfigs := ⟨[("s", .stdio)], by decide⟩

/-- The two answers before it speaks belong to their requests. -/
theorem accepted_belongs_iff_chatty :
    Conforming chattySerde chattyEnvironment ∧
      ∀ accepted ∈ (afterOperations chattySerde chattyEnvironment oneServer
        [.discoverTools 1]).accepted, accepted.Belongs ↔ accepted.Clean :=
  ⟨chatty_conforming, accepted_belongs_iff chatty_conforming oneServer [.discoverTools 1]⟩

/-- The call that meets the message fails, and the next call accepts the answer it left. -/
theorem chatty_accepts_earlier :
    Conforming chattySerde chattyEnvironment ∧
      ∃ accepted ∈ (afterOperations chattySerde chattyEnvironment oneServer
        [.discoverTools 1, .callTool "mcp__s__echo" none,
          .callTool "mcp__s__echo" none]).accepted, ¬accepted.Belongs := by
  refine ⟨chatty_conforming, ?_⟩
  have crossed : (JsonRpcId.number 4, JsonRpcId.number 3) ∈
      (afterOperations chattySerde chattyEnvironment oneServer
        [.discoverTools 1, .callTool "mcp__s__echo" none,
          .callTool "mcp__s__echo" none]).accepted.map
        fun accepted => (accepted.sent.request.id, accepted.id) := by decide +kernel
  obtain ⟨accepted, member, ids⟩ := List.mem_map.1 crossed
  refine ⟨accepted, member, ?_⟩
  rintro ⟨frame, -, -, same⟩
  obtain ⟨asked, carried⟩ := Prod.ext_iff.1 ids
  have three_four : JsonRpcId.number 3 = .number 4 := carried.symm.trans (same.trans asked)
  exact absurd three_four (by decide)

end Openyak.Runtime.Mcp
