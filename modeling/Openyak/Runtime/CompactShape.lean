/-
# Runtime.CompactShape -- what a compaction leaves, and that a second one leaves it

Whether to compact is decided on the messages behind the continuation a session begins with,
the cut is counted from the end of all of them.  `keepFrom_bounds` puts the two together:
where a session is compacted, the cut stands behind the continuation and at least one
message lies between.

What comes out begins with a continuation again, whatever the summary says, and has no
message too many behind it (`shouldCompact_again`).
-/
import Openyak.Runtime.CompactPairs
import Openyak.Runtime.CompactTwice

namespace Openyak.Runtime

set_option autoImplicit false

/-- `&messages[start..stop]`, which panics where the range is not inside. -/
def slice {α : Type} (items : List α) (start stop : Nat) : Option (List α) :=
  if start ≤ stop ∧ stop ≤ items.length then some ((items.take stop).drop start) else none

theorem slice_eq {α : Type} {items : List α} {start stop : Nat} (ordered : start ≤ stop)
    (inside : stop ≤ items.length) : slice items start stop = some ((items.take stop).drop start) :=
  if_pos ⟨ordered, inside⟩

variable {session : Session} {config : CompactionConfig}

theorem compactedSummaryPrefixLen_le (session : Session) :
    compactedSummaryPrefixLen session ≤ session.messages.length := by
  unfold compactedSummaryPrefixLen existingSummary
  cases messages : session.messages with
  | nil => simp
  | cons message rest =>
      split
      · simp
      · simp

theorem keepFrom_bounds (compacts : shouldCompact session config) :
    compactedSummaryPrefixLen session < keepFrom session config ∧
      keepFrom session config + config.preserveRecentMessages = session.messages.length := by
  unfold shouldCompact at compacts
  simp only [Bool.and_eq_true, decide_eq_true_eq, List.length_drop] at compacts
  unfold keepFrom
  omega

theorem existingSummary_continuationMessage {summary : List Char} {recent : Bool}
    {rest : List ConversationMessage} (begins : session.messages = continuationMessage summary recent :: rest) :
    (existingSummary session).isSome := by
  have continues : Continues session summary :=
    ⟨_, rest, true, recent, begins, rfl, firstTextBlock_continuationMessage summary recent⟩
  obtain ⟨_, _, found⟩ := existingSummary_continues continues
  rw [found]
  rfl

/-- Behind a continuation and no more messages than are preserved, nothing is due. -/
theorem shouldCompact_again {summary : List Char} {recent : Bool} {rest : List ConversationMessage}
    (begins : session.messages = continuationMessage summary recent :: rest)
    (few : rest.length ≤ config.preserveRecentMessages) : shouldCompact session config = false := by
  have lead : compactedSummaryPrefixLen session = 1 :=
    if_pos (existingSummary_continuationMessage begins)
  unfold shouldCompact
  rw [lead, begins]
  simp only [List.drop_succ_cons, List.drop_zero, Bool.and_eq_false_iff, decide_eq_false_iff_not]
  exact .inl (by omega)

theorem compactSession_unchanged (skips : shouldCompact session config = false) :
    (compactSession session config).compactedSession = session := by
  unfold compactSession
  simp [skips]

/-- **The shape of a compaction**: no slice is out of range; a session that is not due stays;
one that is due becomes a system message and its last messages, and stays so. -/
theorem compaction_shape (session : Session) (config : CompactionConfig) :
    slice session.messages (compactedSummaryPrefixLen session) session.messages.length =
      some (session.messages.drop (compactedSummaryPrefixLen session)) ∧
    if shouldCompact session config then
      slice session.messages (compactedSummaryPrefixLen session) (keepFrom session config) =
        some (removedMessages session config) ∧
      slice session.messages (keepFrom session config) session.messages.length =
        some (preservedMessages session config) ∧
      (∃ summary recent, (continuationMessage summary recent).role = .system ∧
        (compactSession session config).compactedSession.messages =
          continuationMessage summary recent :: preservedMessages session config) ∧
      preservedMessages session config <:+ session.messages ∧
      (preservedMessages session config).length = config.preserveRecentMessages ∧
      (compactSession session config).removedMessageCount + config.preserveRecentMessages +
        (if (compactSession session config).summaryMode = .mergedExisting then 1 else 0) =
          session.messages.length ∧
      1 ≤ (compactSession session config).removedMessageCount ∧
      (compactSession (compactSession session config).compactedSession config).compactedSession =
        (compactSession session config).compactedSession
    else (compactSession session config).compactedSession = session := by
  have lead := compactedSummaryPrefixLen_le session
  refine ⟨(slice_eq lead le_rfl).trans (by rw [List.take_length]), ?_⟩
  split
  · rename_i compacts
    obtain ⟨behind, whole⟩ := keepFrom_bounds compacts
    have preserved : (preservedMessages session config).length = config.preserveRecentMessages := by
      rw [preservedMessages, List.length_drop]
      omega
    obtain ⟨skips, -⟩ | ⟨-, summary, recent, kept⟩ := compactSession_messages session config
    · rw [compacts] at skips
      cases skips
    have count : (compactSession session config).removedMessageCount =
        keepFrom session config - compactedSummaryPrefixLen session := by
      have removed : (removedMessages session config).length =
          keepFrom session config - compactedSummaryPrefixLen session := by
        rw [removedMessages, List.length_drop, List.length_take]
        omega
      unfold compactSession
      rw [if_neg (by simp [compacts])]
      exact removed
    have merged : (if (compactSession session config).summaryMode = .mergedExisting then 1 else 0) =
        compactedSummaryPrefixLen session := by
      have mode : (compactSession session config).summaryMode =
          if (existingSummary session).isSome then .mergedExisting else .newSummary := by
        unfold compactSession
        rw [if_neg (show ¬(!shouldCompact session config) = true by simp [compacts])]
      rw [mode, compactedSummaryPrefixLen]
      cases (existingSummary session).isSome with
      | true => rfl
      | false => rfl
    refine ⟨slice_eq behind.le (by omega), ?_, ⟨_, _, rfl, kept⟩, List.drop_suffix _ _, preserved, ?_, ?_, ?_⟩
    · rw [slice_eq (by omega) le_rfl, List.take_length]
      rfl
    · rw [count, merged]
      omega
    · omega
    · exact compactSession_unchanged (shouldCompact_again kept preserved.le)
  · rename_i skips
    exact compactSession_unchanged (by simpa using skips)

end Openyak.Runtime
