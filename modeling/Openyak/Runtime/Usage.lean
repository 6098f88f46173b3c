/-
# Runtime.Usage -- what a session has cost so far

A tracker sums the usage of a session: what its telemetry says of messages that were
compacted away, and what the messages it has carry.  A session that begins with a
continuation and has no telemetry was compacted by a program that did not count, and
its sums are partial.
-/
import Openyak.Runtime.Compact

namespace Openyak.Runtime

set_option autoImplicit false

structure UsageTracker where
  latestTurn : TokenUsage := {}
  cumulative : TokenUsage := {}
  turns : UInt32 := 0
  accountingStatus : SessionAccountingStatus := .complete
  deriving DecidableEq, Repr

/-- Field by field, with `+=`. -/
def TokenUsage.plus (left right : TokenUsage) : TokenUsage where
  inputTokens := left.inputTokens + right.inputTokens
  outputTokens := left.outputTokens + right.outputTokens
  cacheCreationInputTokens := left.cacheCreationInputTokens + right.cacheCreationInputTokens
  cacheReadInputTokens := left.cacheReadInputTokens + right.cacheReadInputTokens

def UsageTracker.record (tracker : UsageTracker) (usage : TokenUsage) : UsageTracker :=
  { tracker with
    latestTurn := usage
    cumulative := tracker.cumulative.plus usage
    turns := tracker.turns + 1 }

/-- One message of `from_session`'s loop. -/
def UsageTracker.recordMessage (tracker : UsageTracker) (message : ConversationMessage) :
    UsageTracker := message.usage.elim tracker tracker.record

def UsageTracker.fromSession (session : Session) : UsageTracker :=
  session.messages.foldl UsageTracker.recordMessage
    { cumulative := (session.telemetry.map (·.compactedUsage)).getD {}
      turns := (session.telemetry.map (·.compactedTurns)).getD 0
      accountingStatus :=
        match session.telemetry with
        | some telemetry => telemetry.accountingStatus
        | none =>
            if sessionHasCompactedSummary session then .partialLegacyCompaction else .complete }

end Openyak.Runtime
