/-
# Runtime.Compact -- a session's older messages folded into a summary

`compactSession` replaces what comes before the last messages by one system message,
the continuation, that holds a summary in prose.  A session that begins with a
continuation already has its summary read back out of the prose and merged with that
of the messages now removed.

What the summary is made from are excerpts of the messages, cut to a length; what it is
read back by are its headings and tags.  Both are texts.
-/
import Openyak.Runtime.Session
import Openyak.Theory.PathText
import Openyak.Theory.Text
import Mathlib.Data.List.Sort
import Mathlib.Data.List.Dedup
import Mathlib.Data.String.Basic
import Mathlib.Algebra.GroupWithZero.Nat

namespace Openyak.Runtime

open Openyak.Theory

set_option autoImplicit false

def compactContinuationPreamble : String :=
  "This session is being continued from a previous conversation that ran out of context. " ++
    "The summary below covers the earlier portion of the conversation.\n\n"

def compactRecentMessagesNote : String := "Recent messages are preserved verbatim."

def compactDirectResumeInstruction : String :=
  "Continue the conversation from where it left off without asking the user any further " ++
    "questions. Resume directly — do not acknowledge the summary, do not recap what was " ++
    "happening, and do not preface with continuation text."

structure CompactionConfig where
  preserveRecentMessages : Nat := 4
  maxEstimatedTokens : Nat := 10000
  deriving DecidableEq, Repr

inductive CompactionSummaryMode where
  | unchanged
  | newSummary
  | mergedExisting
  deriving DecidableEq, Repr

structure CompactionResult where
  summary : List Char
  formattedSummary : List Char
  compactedSession : Session
  removedMessageCount : Nat
  summaryMode : CompactionSummaryMode
  estimatedTokensBefore : Nat
  estimatedTokensAfter : Nat
  accountingStatus : SessionAccountingStatus
  deriving DecidableEq, Repr

/-! ## Sizes -/

def estimateBlockTokens : ContentBlock → Nat
  | .text text => text.utf8ByteSize / 4 + 1
  | .toolUse _ name input => (name.utf8ByteSize + input.utf8ByteSize) / 4 + 1
  | .toolResult _ toolName output _ => (toolName.utf8ByteSize + output.utf8ByteSize) / 4 + 1
  | .userInputRequest _ prompt options _ =>
      (prompt.utf8ByteSize + (String.join options).utf8ByteSize) / 4 + 1
  | .userInputResponse _ content _ => content.utf8ByteSize / 4 + 1

def estimateMessageTokens (message : ConversationMessage) : Nat :=
  (message.blocks.map estimateBlockTokens).sum

def estimateSessionTokens (session : Session) : Nat :=
  (session.messages.map estimateMessageTokens).sum

/-! ## Tags, blank lines, excerpts -/

def openTag (tag : String) : String := "<" ++ tag ++ ">"

def closeTag (tag : String) : String := "</" ++ tag ++ ">"

def extractTagBlock (content : List Char) (tag : String) : Option (List Char) := do
  let (_, rest) ← Text.splitOnce (openTag tag) content
  let (inside, _) ← Text.splitOnce (closeTag tag) rest
  return inside

/-- What is before the first opening tag, and what is behind the first closing one. -/
def stripTagBlock (content : List Char) (tag : String) : List Char :=
  match Text.splitOnce (openTag tag) content, Text.splitOnce (closeTag tag) content with
  | some (before, _), some (_, behind) => before ++ behind
  | _, _ => content

/-- The lines of the loop: a blank line is dropped behind another. -/
def collapseLines : (lastBlank : Bool) → List (List Char) → List (List Char)
  | _, [] => []
  | lastBlank, line :: rest =>
      let isBlank := Text.trim line = []
      if isBlank && lastBlank then collapseLines lastBlank rest
      else line :: collapseLines isBlank rest

def collapseBlankLines (content : List Char) : List Char :=
  (collapseLines false (Text.lines content)).flatMap fun line => line ++ ['\n']

def formatCompactSummary (summary : List Char) : List Char :=
  let withoutAnalysis := stripTagBlock summary "analysis"
  let formatted :=
    match extractTagBlock withoutAnalysis "summary" with
    | some content =>
        Text.replace (openTag "summary" ++ String.ofList content ++ closeTag "summary")
          ("Summary:\n" ++ String.ofList (Text.trim content)) withoutAnalysis
    | none => withoutAnalysis
  Text.trim (collapseBlankLines formatted)

def truncateSummary (content : List Char) (maxChars : Nat) : List Char :=
  if content.length ≤ maxChars then content else content.take maxChars ++ ['…']

/-! ## The continuation -/

def getCompactContinuationMessage (summary : List Char)
    (suppressFollowUpQuestions recentMessagesPreserved : Bool) : List Char :=
  compactContinuationPreamble.toList ++ formatCompactSummary summary ++
    (if recentMessagesPreserved then ("\n\n" ++ compactRecentMessagesNote).toList else []) ++
    if suppressFollowUpQuestions then ("\n" ++ compactDirectResumeInstruction).toList else []

/-- The first text block or response that is not blank. -/
def firstTextBlock (message : ConversationMessage) : Option (List Char) :=
  message.blocks.findSome? fun block =>
    match block with
    | .text text => if Text.trim text.toList ≠ [] then some text.toList else none
    | .userInputResponse _ content _ =>
        if Text.trim content.toList ≠ [] then some content.toList else none
    | .toolUse .. | .toolResult .. | .userInputRequest .. => none

/-- What is before a note, if it is there. -/
def beforeNote (note : String) (summary : List Char) : List Char :=
  match Text.splitOnce note summary with
  | some (before, _) => before
  | none => summary

def extractExistingCompactedSummary (message : ConversationMessage) : Option (List Char) :=
  if message.role ≠ .system then none
  else do
    let text ← firstTextBlock message
    let summary ← Text.stripPrefix compactContinuationPreamble text
    return Text.trim (beforeNote ("\n" ++ compactDirectResumeInstruction)
      (beforeNote ("\n\n" ++ compactRecentMessagesNote) summary))

/-- The summary a session begins with. -/
def existingSummary (session : Session) : Option (List Char) :=
  session.messages.head?.bind extractExistingCompactedSummary

def compactedSummaryPrefixLen (session : Session) : Nat :=
  if (existingSummary session).isSome then 1 else 0

def sessionHasCompactedSummary (session : Session) : Bool :=
  compactedSummaryPrefixLen session > 0

def shouldCompact (session : Session) (config : CompactionConfig) : Bool :=
  let compactable := session.messages.drop (compactedSummaryPrefixLen session)
  compactable.length > config.preserveRecentMessages &&
    (compactable.map estimateMessageTokens).sum ≥ config.maxEstimatedTokens

/-! ## What a summary mentions -/

/-- `sort`, then `dedup`. -/
def sortDedup (names : List String) : List String := (names.insertionSort (· ≤ ·)).dedup

def toolName? : ContentBlock → Option String
  | .toolUse _ name _ => some name
  | .toolResult _ toolName _ _ => some toolName
  | .text _ | .userInputRequest .. | .userInputResponse .. => none

def collectRecentRoleSummaries (messages : List ConversationMessage) (role : MessageRole)
    (limit : Nat) : List (List Char) :=
  ((((messages.filter fun message => message.role = role).reverse.filterMap
    firstTextBlock).take limit).map fun text => truncateSummary text 160).reverse

def mentionsPendingWork (text : List Char) : Bool :=
  let lowered := Text.toAsciiLowercase text
  Text.contains "todo" lowered || Text.contains "next" lowered ||
    Text.contains "pending" lowered || Text.contains "follow up" lowered ||
    Text.contains "remaining" lowered

def inferPendingWork (messages : List ConversationMessage) : List (List Char) :=
  ((((messages.reverse.filterMap firstTextBlock).filter mentionsPendingWork).take 3).map
    fun text => truncateSummary text 160).reverse

def hasInterestingExtension (candidate : List Char) : Bool :=
  match (Posix.Path.ofText (String.ofList candidate)).extension with
  | some extension =>
      ["rs", "ts", "tsx", "js", "json", "md"].any fun expected =>
        Text.toAsciiLowercase extension = Text.toAsciiLowercase expected.toList
  | none => false

def extractFileCandidates (content : String) : List String :=
  (Text.splitWhitespace content.toList).filterMap fun token =>
    let candidate := Text.trimMatches [',', '.', ':', ';', ')', '(', '"', '\'', '\x60'] token
    if candidate.contains '/' && hasInterestingExtension candidate then
      some (String.ofList candidate)
    else none

def searchedText : ContentBlock → String
  | .text text => text
  | .toolUse _ _ input => input
  | .toolResult _ _ output _ => output
  | .userInputRequest _ prompt _ _ => prompt
  | .userInputResponse _ content _ => content

def collectKeyFiles (messages : List ConversationMessage) : List String :=
  (sortDedup ((messages.flatMap fun message => message.blocks.map searchedText).flatMap
    extractFileCandidates)).take 8

def inferCurrentWork (messages : List ConversationMessage) : Option (List Char) :=
  ((messages.reverse.filterMap firstTextBlock).find? fun text => Text.trim text ≠ []).map
    fun text => truncateSummary text 200

def summarizeBlock (block : ContentBlock) : List Char :=
  let raw :=
    match block with
    | .text text => text
    | .toolUse _ name input => "tool_use " ++ name ++ "(" ++ input ++ ")"
    | .toolResult _ toolName output isError =>
        "tool_result " ++ toolName ++ ": " ++ (if isError then "error " else "") ++ output
    | .userInputRequest _ prompt options _ =>
        "user_input_request " ++ prompt ++
          if options = [] then "" else " options=" ++ String.intercalate ", " options
    | .userInputResponse _ content _ => "user_input_response " ++ content
  truncateSummary raw.toList 160

def MessageRole.label : MessageRole → String
  | .system => "system"
  | .user => "user"
  | .assistant => "assistant"
  | .tool => "tool"

/-- A message's entry in the timeline, without its indentation. -/
def timelineEntry (message : ConversationMessage) : List Char :=
  ("- " ++ message.role.label ++ ": ").toList ++
    List.intercalate " | ".toList (message.blocks.map summarizeBlock)

/-! ## Summaries -/

def indent (line : List Char) : List Char := ' ' :: ' ' :: line

/-- A heading with its items, left out without items. -/
def section_ (heading : String) (items : List (List Char)) : List (List Char) :=
  if items = [] then [] else heading.toList :: items.map indent

def roleCount (messages : List ConversationMessage) (role : MessageRole) : String :=
  toString (messages.filter fun message => message.role = role).length

def scopeLine (messages : List ConversationMessage) : String :=
  "- Scope: " ++ toString messages.length ++ " earlier messages compacted (user=" ++
    roleCount messages .user ++ ", assistant=" ++ roleCount messages .assistant ++ ", tool=" ++
    roleCount messages .tool ++ ")."

/-- The lines of a summary before its timeline, without the opening tag. -/
def summaryHead (messages : List ConversationMessage) : List (List Char) :=
  let toolNames := sortDedup ((messages.flatMap (·.blocks)).filterMap toolName?)
  let keyFiles := collectKeyFiles messages
  ["Conversation summary:".toList, (scopeLine messages).toList] ++
    (if toolNames = [] then []
      else [("- Tools mentioned: " ++ String.intercalate ", " toolNames ++ ".").toList]) ++
    section_ "- Recent user requests:"
      ((collectRecentRoleSummaries messages .user 3).map ("- ".toList ++ ·)) ++
    section_ "- Pending work:" ((inferPendingWork messages).map ("- ".toList ++ ·)) ++
    (if keyFiles = [] then []
      else [("- Key files referenced: " ++ String.intercalate ", " keyFiles ++ ".").toList]) ++
    (match inferCurrentWork messages with
      | some currentWork => ["- Current work: ".toList ++ currentWork]
      | none => [])

def summarizeMessages (messages : List ConversationMessage) : List Char :=
  Text.joinLines (["<summary>".toList] ++ summaryHead messages ++ ["- Key timeline:".toList] ++
    messages.map (fun message => indent (timelineEntry message)) ++ ["</summary>".toList])

/-! ## Reading a summary back -/

def isSummaryTitle (line : List Char) : Bool :=
  line = [] || line = "Summary:".toList || line = "Conversation summary:".toList

def isTimelineHeading (line : List Char) : Bool := line = "- Key timeline:".toList

/-- The loop of `extract_summary_highlights` over its lines. -/
def highlightLines : (inTimeline : Bool) → List (List Char) → List (List Char)
  | _, [] => []
  | inTimeline, line :: rest =>
      let trimmed := Text.trimEnd line
      if isSummaryTitle trimmed then highlightLines inTimeline rest
      else if isTimelineHeading trimmed then highlightLines true rest
      else if inTimeline then highlightLines inTimeline rest
      else trimmed :: highlightLines inTimeline rest

def extractSummaryHighlights (summary : List Char) : List (List Char) :=
  highlightLines false (Text.lines (formatCompactSummary summary))

/-- The loop of `extract_summary_timeline`: a blank line ends the timeline. -/
def timelineLines : (inTimeline : Bool) → List (List Char) → List (List Char)
  | _, [] => []
  | inTimeline, line :: rest =>
      let trimmed := Text.trimEnd line
      if isTimelineHeading trimmed then timelineLines true rest
      else if !inTimeline then timelineLines inTimeline rest
      else if trimmed = [] then []
      else trimmed :: timelineLines inTimeline rest

def extractSummaryTimeline (summary : List Char) : List (List Char) :=
  timelineLines false (Text.lines (formatCompactSummary summary))

def mergeCompactSummaries (existingSummary : Option (List Char)) (newSummary : List Char) :
    List Char :=
  match existingSummary with
  | none => newSummary
  | some existingSummary =>
      let newFormattedSummary := formatCompactSummary newSummary
      Text.joinLines
        (["<summary>".toList, "Conversation summary:".toList] ++
          section_ "- Previously compacted context:" (extractSummaryHighlights existingSummary) ++
          section_ "- Newly compacted context:" (extractSummaryHighlights newFormattedSummary) ++
          section_ "- Key timeline:" (extractSummaryTimeline newFormattedSummary) ++
          ["</summary>".toList])

/-! ## Accounting -/

/-- `saturating_add` on a `u32`. -/
def saturatingAdd (left right : UInt32) : UInt32 :=
  if left.toNat + right.toNat < 2 ^ 32 then left + right else 4294967295

def addUsage (left right : TokenUsage) : TokenUsage where
  inputTokens := saturatingAdd left.inputTokens right.inputTokens
  outputTokens := saturatingAdd left.outputTokens right.outputTokens
  cacheCreationInputTokens :=
    saturatingAdd left.cacheCreationInputTokens right.cacheCreationInputTokens
  cacheReadInputTokens := saturatingAdd left.cacheReadInputTokens right.cacheReadInputTokens

def usageForMessages (messages : List ConversationMessage) : TokenUsage :=
  (messages.filterMap (·.usage)).foldl addUsage {}

def turnsForMessages (messages : List ConversationMessage) : UInt32 :=
  let count := (messages.filter fun message => message.usage.isSome).length
  if count < 2 ^ 32 then UInt32.ofNat count else 4294967295

def effectiveAccountingStatus (session : Session) : SessionAccountingStatus :=
  match session.telemetry with
  | some telemetry => telemetry.accountingStatus
  | none =>
      if sessionHasCompactedSummary session then .partialLegacyCompaction else .complete

/-- `SessionTelemetry::default`. -/
def SessionTelemetry.default : SessionTelemetry := ⟨{}, 0, .complete⟩

/-! ## Compaction -/

/-- How many messages go into the summary, or are the summary already. -/
def keepFrom (session : Session) (config : CompactionConfig) : Nat :=
  session.messages.length - config.preserveRecentMessages

/-- The messages a compaction removes, the continuation it replaces left out. -/
def removedMessages (session : Session) (config : CompactionConfig) : List ConversationMessage :=
  (session.messages.take (keepFrom session config)).drop (compactedSummaryPrefixLen session)

def preservedMessages (session : Session) (config : CompactionConfig) :
    List ConversationMessage := session.messages.drop (keepFrom session config)

def continuationMessage (summary : List Char) (recentMessagesPreserved : Bool) :
    ConversationMessage :=
  ⟨.system, [.text (String.ofList
    (getCompactContinuationMessage summary true recentMessagesPreserved))], none⟩

def compactSession (session : Session) (config : CompactionConfig) : CompactionResult :=
  let estimatedTokensBefore := estimateSessionTokens session
  let accountingStatus := effectiveAccountingStatus session
  if !shouldCompact session config then
    { summary := []
      formattedSummary := []
      compactedSession := session
      removedMessageCount := 0
      summaryMode := .unchanged
      estimatedTokensBefore := estimatedTokensBefore
      estimatedTokensAfter := estimatedTokensBefore
      accountingStatus := accountingStatus }
  else
    let removed := removedMessages session config
    let preserved := preservedMessages session config
    let summary := mergeCompactSummaries (existingSummary session) (summarizeMessages removed)
    let previousTelemetry := session.telemetry.getD .default
    let compactedSession : Session :=
      { version := session.version
        messages := continuationMessage summary (preserved ≠ []) :: preserved
        telemetry := some
          { compactedUsage := addUsage previousTelemetry.compactedUsage (usageForMessages removed)
            compactedTurns := previousTelemetry.compactedTurns + turnsForMessages removed
            accountingStatus := accountingStatus } }
    { summary := summary
      formattedSummary := formatCompactSummary summary
      compactedSession := compactedSession
      removedMessageCount := removed.length
      summaryMode :=
        if (existingSummary session).isSome then .mergedExisting else .newSummary
      estimatedTokensBefore := estimatedTokensBefore
      estimatedTokensAfter := estimateSessionTokens compactedSession
      accountingStatus := accountingStatus }

end Openyak.Runtime
