/-
# Runtime.SessionCodecs -- where the two codecs of a session agree

Each codec reads what it wrote, and what `serde` derives reads the text of the session
file.  The hand-written decoder takes an absent value for none, and fails at the null
that `serde` writes in its place: it reads the server's text of a session exactly when
every message has a usage and every response a selected option.

The texts of `serde_json` are third-party code: `SerdeJson` holds the two functions, and
what a result relies on is stated at its session.
-/
import Openyak.Runtime.SessionJson

namespace Openyak.Runtime

open Openyak.Theory

set_option autoImplicit false

/-! ## Leaves -/

theorem u32TryFrom_i64From (value : UInt32) : u32TryFrom (i64From value) = some value := by
  have small := value.toNat_lt
  have same : (i64From value).toInt = value.toNat := Int64.toInt_ofInt_of_le (by omega) (by omega)
  rw [u32TryFrom, same, if_pos (by omega), Int.toNat_natCast, UInt32.ofNat_toNat]

section Lists

variable {α ε : Type} {encode : α → JsonValue}

/-- A list is read back exactly when each of its items is. -/
theorem mapM_ok_iff {decode : JsonValue → Except ε α} {items : List α} :
    (items.map encode).mapM decode = .ok items ↔
      ∀ item ∈ items, decode (encode item) = .ok item := by
  induction items with
  | nil => exact ⟨nofun, fun _ => rfl⟩
  | cons item items ih =>
      rw [List.map_cons, List.mapM_cons, List.forall_mem_cons]
      constructor
      · intro reads
        obtain ⟨read, isRead, more⟩ := bind_eq_ok.1 reads
        obtain ⟨others, isOthers, last⟩ := bind_eq_ok.1 more
        obtain ⟨rfl, rfl⟩ := List.cons.inj (Except.ok.inj last)
        exact ⟨isRead, ih.1 isOthers⟩
      · rintro ⟨isRead, later⟩
        rw [isRead, ok_bind, ih.2 later]
        rfl

theorem mapM_some {decode : JsonValue → Option α} {items : List α}
    (each : ∀ item ∈ items, decode (encode item) = some item) :
    (items.map encode).mapM decode = some items := by
  induction items with
  | nil => rfl
  | cons item items ih =>
      rw [List.forall_mem_cons] at each
      rw [List.map_cons, List.mapM_cons, each.1, ih each.2]
      rfl

end Lists

/-! ## The hand-written codec -/

theorem usageFromJson_toJson (usage : TokenUsage) :
    usageFromJson (usageToJson usage) = .ok usage := by
  simp [usageToJson, objectOf, usageFromJson, asObject, orFormat, requiredU32,
    JsonEntries.ofMembers, asI64, u32TryFrom_i64From, ok_bind]

theorem telemetryFromJson_toJson (telemetry : SessionTelemetry) :
    telemetryFromJson (telemetryToJson telemetry) = .ok telemetry := by
  have status : accountingStatusFromStr telemetry.accountingStatus.asStr =
      .ok telemetry.accountingStatus := by
    cases telemetry.accountingStatus <;> rfl
  simp [telemetryToJson, objectOf, telemetryFromJson, asObject, orFormat, requiredU32,
    JsonEntries.ofMembers, asI64, asStr, u32TryFrom_i64From, ok_bind, status, decodeIfThere,
    usageFromJson_toJson, Except.map]

theorem roleFromStr_asStr (role : MessageRole) : roleFromStr role.asStr = .ok role := by
  cases role <;> rfl

theorem requiredStringArray_of {object : JsonObject} {key : String} (options : List String)
    (there : object.get? key = some (.array (options.map .string))) :
    requiredStringArray object key = .ok options := by
  rw [requiredStringArray, there]
  exact mapM_ok_iff.2 fun _ _ => rfl

theorem ContentBlock.fromJson_toJson (block : ContentBlock) :
    ContentBlock.fromJson block.toJson = .ok block := by
  cases block with
  | text content =>
      simp [ContentBlock.toJson, objectOf, ContentBlock.fromJson, asObject, orFormat,
        JsonEntries.ofMembers, asStr, ok_bind, requiredString]
  | toolUse id name input =>
      simp [ContentBlock.toJson, objectOf, ContentBlock.fromJson, asObject, orFormat,
        JsonEntries.ofMembers, asStr, ok_bind, requiredString]
  | toolResult toolUseId toolName output isError =>
      simp [ContentBlock.toJson, objectOf, ContentBlock.fromJson, asObject, orFormat,
        JsonEntries.ofMembers, asStr, asBool, ok_bind, requiredString, requiredBool]
  | userInputRequest requestId prompt options allowFreeform =>
      simp only [ContentBlock.toJson, objectOf, ContentBlock.fromJson, asObject, orFormat, ok_bind]
      rw [requiredStringArray_of options (by simp [JsonEntries.ofMembers])]
      simp [JsonEntries.ofMembers, asStr, asBool, ok_bind, requiredString, requiredBool, orFormat]
  | userInputResponse requestId content selectedOption =>
      cases selectedOption <;>
        simp [ContentBlock.toJson, objectOf, ContentBlock.fromJson, asObject, orFormat,
          JsonEntries.ofMembers, asStr, ok_bind, requiredString, optionalString, Except.map]

/-- A message is read back exactly when its blocks and its usage are. -/
theorem ConversationMessage.fromJson_iff (encode : ContentBlock → JsonValue)
    {object : JsonObject} {message : ConversationMessage}
    (role : object.get? "role" = some (.string message.role.asStr))
    (blocks : object.get? "blocks" = some (.array (message.blocks.map encode))) :
    ConversationMessage.fromJson (.object object) = .ok message ↔
      (∀ block ∈ message.blocks, ContentBlock.fromJson (encode block) = .ok block) ∧
        decodeIfThere usageFromJson (object.get? "usage") = .ok message.usage := by
  obtain ⟨messageRole, messageBlocks, messageUsage⟩ := message
  simp only at role blocks
  simp only [ConversationMessage.fromJson, asObject, orFormat, ok_bind, role, blocks, asStr,
    asArray, Option.bind_some, roleFromStr_asStr]
  rw [← mapM_ok_iff]
  constructor
  · intro reads
    obtain ⟨read, isBlocks, more⟩ := bind_eq_ok.1 reads
    obtain ⟨usage, isUsage, last⟩ := bind_eq_ok.1 more
    cases last
    exact ⟨isBlocks, isUsage⟩
  · rintro ⟨isBlocks, isUsage⟩
    rw [isBlocks, ok_bind, isUsage]
    rfl

theorem Session.fromJson_iff (encode : ConversationMessage → JsonValue)
    {object : JsonObject} {session : Session}
    (version : object.get? "version" = some (.number (i64From session.version)))
    (messages : object.get? "messages" = some (.array (session.messages.map encode))) :
    Session.fromJson (.object object) = .ok session ↔
      (∀ message ∈ session.messages, ConversationMessage.fromJson (encode message) = .ok message) ∧
        decodeIfThere telemetryFromJson (object.get? "telemetry") = .ok session.telemetry := by
  obtain ⟨sessionVersion, sessionMessages, sessionTelemetry⟩ := session
  simp only at version messages
  simp only [Session.fromJson, asObject, orFormat, ok_bind, version, messages, asI64, asArray,
    Option.bind_some, u32TryFrom_i64From]
  rw [← mapM_ok_iff]
  constructor
  · intro reads
    obtain ⟨read, isMessages, more⟩ := bind_eq_ok.1 reads
    obtain ⟨telemetry, isTelemetry, last⟩ := bind_eq_ok.1 more
    cases last
    exact ⟨isMessages, isTelemetry⟩
  · rintro ⟨isMessages, isTelemetry⟩
    rw [isMessages, ok_bind, isTelemetry]
    rfl

/-- An option that is left out when there is none is read back. -/
theorem decodeIfThere_map {α : Type} {encode : α → JsonValue}
    {decode : JsonValue → Except SessionError α}
    (each : ∀ value, decode (encode value) = .ok value) (value : Option α) :
    decodeIfThere decode (value.map encode) = .ok value := by
  cases value with
  | none => rfl
  | some value =>
      rw [Option.map_some, decodeIfThere, each]
      rfl

theorem ConversationMessage.fromJson_toJson (message : ConversationMessage) :
    ConversationMessage.fromJson message.toJson = .ok message := by
  refine (ConversationMessage.fromJson_iff ContentBlock.toJson ?_ ?_).2
    ⟨fun block _ => block.fromJson_toJson, ?_⟩
  · cases message.usage <;> simp [JsonEntries.ofMembers]
  · cases message.usage <;> simp [JsonEntries.ofMembers]
  · rw [← decodeIfThere_map usageFromJson_toJson message.usage]
    cases message.usage <;> simp [JsonEntries.ofMembers]

/-- **The hand-written codec reads what it wrote.** -/
theorem Session.fromJson_toJson (session : Session) :
    Session.fromJson session.toJson = .ok session := by
  refine (Session.fromJson_iff ConversationMessage.toJson ?_ ?_).2
    ⟨fun message _ => message.fromJson_toJson, ?_⟩
  · cases session.telemetry <;> simp [JsonEntries.ofMembers]
  · cases session.telemetry <;> simp [JsonEntries.ofMembers]
  · rw [← decodeIfThere_map telemetryFromJson_toJson session.telemetry]
    cases session.telemetry <;> simp [JsonEntries.ofMembers]

theorem Session.fromText_toText (session : Session) :
    Session.fromText session.toText = .ok session := by
  rw [Session.fromText, Session.toText, parse_of_render]
  exact session.fromJson_toJson

/-! ## The hand-written decoder on what serde writes -/

/-- A response without a selected option, which `serde` writes as null. -/
def ContentBlock.leavesOption : ContentBlock → Bool
  | .userInputResponse _ _ selectedOption => selectedOption.isNone
  | _ => false

theorem ContentBlock.fromJson_serialize_iff (block : ContentBlock) :
    ContentBlock.fromJson block.serialize = .ok block ↔ block.leavesOption = false := by
  cases block with
  | userInputResponse requestId content selectedOption =>
      cases selectedOption <;>
        simp [ContentBlock.serialize, ContentBlock.leavesOption, objectOf, ContentBlock.fromJson,
          asObject, orFormat, JsonEntries.ofMembers, asStr, ok_bind, requiredString,
          optionalString, Except.map]
  | text content =>
      exact ⟨fun _ => rfl, fun _ => ContentBlock.fromJson_toJson (.text content)⟩
  | toolUse id name input =>
      exact ⟨fun _ => rfl, fun _ => ContentBlock.fromJson_toJson (.toolUse id name input)⟩
  | toolResult id name output isError =>
      exact ⟨fun _ => rfl, fun _ =>
        ContentBlock.fromJson_toJson (.toolResult id name output isError)⟩
  | userInputRequest id prompt options freeform =>
      exact ⟨fun _ => rfl, fun _ =>
        ContentBlock.fromJson_toJson (.userInputRequest id prompt options freeform)⟩

/-- A message that `serde` writes a null in. -/
def ConversationMessage.leavesOption (message : ConversationMessage) : Bool :=
  message.usage.isNone || message.blocks.any ContentBlock.leavesOption

theorem ConversationMessage.fromJson_serialize_iff (message : ConversationMessage) :
    ConversationMessage.fromJson message.serialize = .ok message ↔
      message.leavesOption = false := by
  refine (ConversationMessage.fromJson_iff ContentBlock.serialize ?_ ?_).trans ?_
  · simp [JsonEntries.ofMembers]
  · simp [JsonEntries.ofMembers]
  · have usage : decodeIfThere usageFromJson
        (some ((message.usage.map usageToJson).getD .null)) = .ok message.usage ↔
          message.usage.isNone = false := by
      cases message.usage with
      | none => exact ⟨nofun, nofun⟩
      | some usage =>
          exact ⟨fun _ => rfl, fun _ => decodeIfThere_map usageFromJson_toJson (some usage)⟩
    simp only [JsonEntries.ofMembers, List.foldl_cons, List.foldl_nil, JsonEntries.get?_insert,
      if_true, usage, ContentBlock.fromJson_serialize_iff, ConversationMessage.leavesOption,
      Bool.or_eq_false_iff, List.any_eq_false, Bool.not_eq_true]
    exact And.comm

theorem Session.fromJson_serialize_iff (session : Session) :
    Session.fromJson session.serialize = .ok session ↔
      ∀ message ∈ session.messages, message.leavesOption = false := by
  refine (Session.fromJson_iff ConversationMessage.serialize ?_ ?_).trans ?_
  · cases session.telemetry <;> simp [JsonEntries.ofMembers]
  · cases session.telemetry <;> simp [JsonEntries.ofMembers]
  · simp only [ConversationMessage.fromJson_serialize_iff]
    refine and_iff_left ?_
    rw [← decodeIfThere_map telemetryFromJson_toJson session.telemetry]
    cases session.telemetry <;> simp [JsonEntries.ofMembers]

/-! ## serde on what the hand-written encoder writes -/

theorem decodeU32_i64From (value : UInt32) : decodeU32 (.number (i64From value)) = some value :=
  u32TryFrom_i64From value

theorem decodeUsage_toJson (usage : TokenUsage) : decodeUsage (usageToJson usage) = some usage := by
  simp [usageToJson, objectOf, decodeUsage, asObject, field, JsonEntries.ofMembers,
    decodeU32_i64From]

theorem decodeTelemetry_toJson (telemetry : SessionTelemetry) :
    decodeTelemetry (telemetryToJson telemetry) = some telemetry := by
  have status : decodeStatus (.string telemetry.accountingStatus.asStr) =
      some telemetry.accountingStatus := by
    cases telemetry.accountingStatus <;> rfl
  simp [telemetryToJson, objectOf, decodeTelemetry, asObject, field, JsonEntries.ofMembers,
    decodeU32_i64From, decodeUsage_toJson, status]

theorem decodeRole_asStr (role : MessageRole) : decodeRole (.string role.asStr) = some role := by
  cases role <;> rfl

theorem decodeList_map {α : Type} {encode : α → JsonValue} {decode : JsonValue → Option α}
    (each : ∀ item, decode (encode item) = some item) (items : List α) :
    decodeList decode (.array (items.map encode)) = some items :=
  mapM_some fun item _ => each item

theorem ContentBlock.deserialize_toJson (block : ContentBlock) :
    ContentBlock.deserialize block.toJson = some block := by
  have strings (options : List String) :
      decodeList asStr (.array (options.map .string)) = some options :=
    @decodeList_map String .string asStr (fun _ => rfl) options
  cases block with
  | userInputResponse requestId content selectedOption =>
      cases selectedOption <;>
        simp [ContentBlock.toJson, objectOf, ContentBlock.deserialize, asObject, field,
          JsonEntries.ofMembers, asStr, optionField]
  | _ =>
      simp [ContentBlock.toJson, objectOf, ContentBlock.deserialize, asObject, field,
        JsonEntries.ofMembers, asStr, asBool, strings]

theorem ConversationMessage.deserialize_toJson (message : ConversationMessage) :
    ConversationMessage.deserialize message.toJson = some message := by
  obtain ⟨role, blocks, usage⟩ := message
  have items := decodeList_map ContentBlock.deserialize_toJson blocks
  cases usage with
  | none =>
      simp [ConversationMessage.toJson, objectOf, ConversationMessage.deserialize, asObject, field,
        JsonEntries.ofMembers, decodeRole_asStr, items, optionField]
  | some usage =>
      have isObject : ∃ entries, usageToJson usage = .object entries := ⟨_, rfl⟩
      obtain ⟨entries, isEntries⟩ := isObject
      have read := decodeUsage_toJson usage
      rw [isEntries] at read
      simp [ConversationMessage.toJson, objectOf, ConversationMessage.deserialize, asObject, field,
        JsonEntries.ofMembers, decodeRole_asStr, items, optionField, isEntries, read]

/-- **`serde` reads what the hand-written encoder wrote.** -/
theorem Session.deserialize_toJson (session : Session) :
    Session.deserialize session.toJson = some session := by
  obtain ⟨version, messages, telemetry⟩ := session
  have items := decodeList_map ConversationMessage.deserialize_toJson messages
  cases telemetry with
  | none =>
      simp [Session.toJson, objectOf, Session.deserialize, asObject, field,
        JsonEntries.ofMembers, decodeU32_i64From, items, optionField]
  | some telemetry =>
      have isObject : ∃ entries, telemetryToJson telemetry = .object entries := ⟨_, rfl⟩
      obtain ⟨entries, isEntries⟩ := isObject
      have read := decodeTelemetry_toJson telemetry
      rw [isEntries] at read
      simp [Session.toJson, objectOf, Session.deserialize, asObject, field,
        JsonEntries.ofMembers, decodeU32_i64From, items, optionField, isEntries, read]

/-! ## The two codecs -/

/-- `serde_json::to_string` and `serde_json::from_str`, at the type `Session`. -/
structure SessionSerde where
  toString : Session → List Char
  fromStr : List Char → Option Session

/-- The text is standard, denotes what is derived, and has no surrogate escapes. -/
def SessionSerde.Writes (serde : SessionSerde) (session : Session) : Prop :=
  ∃ document : JsonDocument, IsStandard document (serde.toString session) ∧
    document.passes unpaired = true ∧ document.value Int64.ofInt = session.serialize

/-- The text of the session file, where it is standard, is read as derived. -/
def SessionSerde.Reads (serde : SessionSerde) (session : Session) : Prop :=
  ∀ document : JsonDocument, IsStandard document session.toText →
    serde.fromStr session.toText = Session.deserialize (document.value Int64.ofInt)

/-- Each of the three ways from a text of the session back to it. -/
def CodecsAgree (serde : SessionSerde) (session : Session) : Prop :=
  Session.fromText session.toText = .ok session ∧
    Session.fromText (serde.toString session) = .ok session ∧
      serde.fromStr session.toText = some session

/-- **The codecs agree exactly on the sessions that leave no option**: every message has
a usage, every response a selected option. -/
theorem codecs_agree_iff (serde : SessionSerde) (session : Session)
    (writes : serde.Writes session) (reads : serde.Reads session) :
    CodecsAgree serde session ↔ ∀ message ∈ session.messages, message.leavesOption = false := by
  obtain ⟨document, ⟨written, -, fits⟩, single, value⟩ := writes
  have parsed : parse (serde.toString session) = .ok session.serialize :=
    parse_ok_iff.2 ⟨document, written, by simp [JsonDocument.isKnown, single, fits], value⟩
  have derived : serde.fromStr session.toText = some session := by
    have standard : IsStandard (documentOf session.toJson) session.toText :=
      ⟨documentOf_chars _, documentOf_strict _, documentOf_bounded _⟩
    rw [reads _ standard]
    exact (congrArg Session.deserialize (syntaxOf_value _)).trans session.deserialize_toJson
  have served : Session.fromText (serde.toString session) = .ok session ↔
      ∀ message ∈ session.messages, message.leavesOption = false := by
    rw [← session.fromJson_serialize_iff, Session.fromText, parsed]
    rfl
  rw [CodecsAgree, served]
  exact ⟨fun agree => agree.2.1, fun none => ⟨session.fromText_toText, none, derived⟩⟩

/-! ## A user's message, and an answer with its usage -/

def elementsText : List JsonText → ElementsText
  | [] => .close []
  | [value] => .last [] value []
  | value :: rest => .more [] value [] (elementsText rest)

def membersText : List (String × JsonText) → MembersText
  | [] => .close []
  | [(key, value)] => .last [] (itemsOf key) [] [] value []
  | (key, value) :: rest => .more [] (itemsOf key) [] [] value [] (membersText rest)

theorem elementsText_value (values : List JsonText) :
    (JsonText.array (elementsText values)).value Int64.ofInt =
      .array (values.map fun value => value.value Int64.ofInt) := by
  have elements : ∀ values : List JsonText, (elementsText values).values Int64.ofInt =
      values.map fun value => value.value Int64.ofInt := by
    intro values
    induction values with
    | nil => rfl
    | cons value rest ih =>
        cases rest with
        | nil => rfl
        | cons next rest => exact congrArg _ ih
  rw [JsonText.value, elements]

/-- An object of the fields in the order they are written. -/
theorem membersText_value (fields : List (String × JsonText)) :
    (JsonText.object (membersText fields)).value Int64.ofInt =
      objectOf (fields.map fun field => (field.1, field.2.value Int64.ofInt)) := by
  have members : ∀ fields : List (String × JsonText), (membersText fields).members Int64.ofInt =
      fields.map fun field => (field.1, field.2.value Int64.ofInt) := by
    intro fields
    induction fields with
    | nil => rfl
    | cons field rest ih =>
        cases rest with
        | nil => simp [membersText, MembersText.members, stringValue_itemsOf]
        | cons next rest => simp [membersText, MembersText.members, stringValue_itemsOf, ih]
  rw [JsonText.value, members]
  rfl

/-- A session of one message, as `serde_json` writes it. -/
def messageDocument (role text : String) (usage : JsonText) : JsonDocument :=
  ⟨[], .object (membersText [("version", syntaxOf (.number 1)),
    ("messages", .array (elementsText [.object (membersText [("role", syntaxOf (.string role)),
      ("blocks", .array (elementsText [.object (membersText
        [("type", syntaxOf (.string "text")), ("text", syntaxOf (.string text))])])),
      ("usage", usage)])]))]), []⟩

theorem messageDocument_value (role text : String) (usage : JsonText) :
    (messageDocument role text usage).value Int64.ofInt =
      objectOf [("version", .number 1), ("messages", .array [objectOf [("role", .string role),
        ("blocks", .array [objectOf [("type", .string "text"), ("text", .string text)]]),
        ("usage", usage.value Int64.ofInt)]])] := by
  simp only [JsonDocument.value, messageDocument, membersText_value, elementsText_value,
    syntaxOf_value, List.map_cons, List.map_nil]

def hello : Session := { messages := [.userText "hello"] }

def helloText : List Char :=
  "\x7b\"version\":1,\"messages\":[\x7b\"role\":\"user\",\"blocks\":[\x7b\"type\":\"text\",".toList ++
    "\"text\":\"hello\"\x7d],\"usage\":null\x7d]\x7d".toList

/-- A `serde_json` that writes this text, and reads by the parser of the runtime. -/
def serdeWriting (text : List Char) : SessionSerde where
  toString _ := text
  fromStr text := (parse text).toOption.bind Session.deserialize

theorem serdeWriting_reads (text : List Char) (session : Session) :
    (serdeWriting text).Reads session := by
  rintro document ⟨written, -, -⟩
  have same : document = documentOf session.toJson :=
    JsonDocument.unique (written.trans (documentOf_chars _).symm)
  have value : document.value Int64.ofInt = session.toJson := by
    rw [same]
    exact syntaxOf_value _
  have parsed : parse session.toText = .ok session.toJson := parse_of_render session.toJson
  simp only [value, serdeWriting, parsed]
  rfl

theorem helloText_chars : ∃ chars, helloText = chars ∧
    (messageDocument "user" "hello" .null).chars = chars ∧
      Session.fromText chars = .error (.format "usage must be an object") :=
  ⟨_, congrArg₂ (· ++ ·) String.toList_ofList String.toList_ofList, by decide +kernel, rfl⟩

/-- The null of the message's usage is not read. -/
theorem hello_not_agree :
    (serdeWriting helloText).Writes hello ∧ (serdeWriting helloText).Reads hello ∧
      Session.fromText helloText = .error (.format "usage must be an object") ∧
      ¬ CodecsAgree (serdeWriting helloText) hello := by
  obtain ⟨chars, isText, written, read⟩ := helloText_chars
  rw [← isText] at written read
  have unread : Session.fromText helloText = .error (.format "usage must be an object") := read
  refine ⟨⟨messageDocument "user" "hello" .null, ⟨written, rfl, rfl⟩, rfl, ?_⟩,
    serdeWriting_reads helloText hello, unread, ?_⟩
  · rw [messageDocument_value]
    rfl
  · rintro ⟨-, served, -⟩
    exact nomatch unread.symm.trans served

def greeting : Session :=
  { messages := [.assistantWithUsage [.text "hi"] (some { inputTokens := 10, outputTokens := 4 })] }

def greetingText : List Char :=
  "\x7b\"version\":1,\"messages\":[\x7b\"role\":\"assistant\",\"blocks\":[\x7b\"type\":".toList ++
    "\"text\",\"text\":\"hi\"\x7d],\"usage\":\x7b\"input_tokens\":10,\"output_tokens\":4,".toList ++
    "\"cache_creation_input_tokens\":0,\"cache_read_input_tokens\":0\x7d\x7d]\x7d".toList

/-- Its document. -/
def greetingDocument : JsonDocument :=
  messageDocument "assistant" "hi" (.object (membersText [("input_tokens", syntaxOf (.number 10)),
    ("output_tokens", syntaxOf (.number 4)), ("cache_creation_input_tokens", syntaxOf (.number 0)),
    ("cache_read_input_tokens", syntaxOf (.number 0))]))

theorem greetingText_chars : greetingDocument.chars = greetingText := by
  have text : greetingText = _ := congrArg₂ (· ++ ·)
    (congrArg₂ (· ++ ·) String.toList_ofList String.toList_ofList) String.toList_ofList
  rw [text]
  decide +kernel

set_option maxRecDepth 2000 in
theorem codecs_agree_iff_greeting : CodecsAgree (serdeWriting greetingText) greeting := by
  have writes : (serdeWriting greetingText).Writes greeting := by
    refine ⟨greetingDocument, ⟨greetingText_chars, rfl, rfl⟩, rfl, ?_⟩
    rw [greetingDocument, messageDocument_value, membersText_value]
    simp only [List.map_cons, List.map_nil, syntaxOf_value]
    rfl
  have reads := serdeWriting_reads greetingText greeting
  refine (codecs_agree_iff (serdeWriting greetingText) greeting writes reads).2 ?_
  decide

end Openyak.Runtime
