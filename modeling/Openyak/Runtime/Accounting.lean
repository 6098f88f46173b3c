/-
# Runtime.Accounting -- usage survives compaction, and the live tracker is the session's

What a session has cost is a sum: the telemetry's part and that of each message.  A
compaction moves the removed messages' part into the telemetry; as long as the sums fit
in a `u32` nothing saturates or wraps, and the sums stay (`total_compactSession`).

The live tracker records a reply's usage when the reply is pushed, so it holds what
`from_session` makes of the session (`Tracked`), a loop invariant.
-/
import Openyak.Runtime.LoopInvariant
import Mathlib.Algebra.BigOperators.Group.List.Basic

namespace Openyak.Runtime

set_option autoImplicit false

/-! ## Totals -/

/-- What is counted: the four kinds of token, and the turns. -/
inductive Meter where
  | inputTokens
  | outputTokens
  | cacheCreationInputTokens
  | cacheReadInputTokens
  | turns
  deriving DecidableEq, Repr

/-- What one reply adds to a meter. -/
def Meter.read (usage : TokenUsage) : Meter → UInt32
  | .inputTokens => usage.inputTokens
  | .outputTokens => usage.outputTokens
  | .cacheCreationInputTokens => usage.cacheCreationInputTokens
  | .cacheReadInputTokens => usage.cacheReadInputTokens
  | .turns => 1

/-- A tracker's count. -/
def Meter.count (tracker : UsageTracker) : Meter → UInt32
  | .turns => tracker.turns
  | meter => meter.read tracker.cumulative

/-- What a telemetry says was compacted away. -/
def Meter.compacted (telemetry : SessionTelemetry) : Meter → UInt32
  | .turns => telemetry.compactedTurns
  | meter => meter.read telemetry.compactedUsage

/-- A message's part of a meter. -/
def Meter.ofMessage (meter : Meter) (message : ConversationMessage) : Nat :=
  message.usage.elim 0 fun usage => (meter.read usage).toNat

def Meter.ofMessages (meter : Meter) (messages : List ConversationMessage) : Nat :=
  (messages.map meter.ofMessage).sum

/-- The true total of a session, telemetry and messages. -/
def Meter.total (meter : Meter) (session : Session) : Nat :=
  (session.telemetry.elim 0 fun telemetry => (meter.compacted telemetry).toNat) +
    meter.ofMessages session.messages

/-- Every total fits in a `u32`. -/
def Fits (session : Session) : Prop := ∀ meter : Meter, meter.total session < 2 ^ 32

/-- A continuation the session begins with carries no usage. -/
def LeadingUnbilled (session : Session) : Prop :=
  ∀ message, session.messages.head? = some message →
    (extractExistingCompactedSummary message).isSome → message.usage = none

/-- What is compared of two trackers: all but the latest turn. -/
structure SameAccount (tracker other : UsageTracker) : Prop where
  cumulative : tracker.cumulative = other.cumulative
  turns : tracker.turns = other.turns
  status : tracker.accountingStatus = other.accountingStatus

theorem sameAccount_of_counts {tracker other : UsageTracker}
    (counts : ∀ meter : Meter, (meter.count tracker).toNat = (meter.count other).toNat)
    (status : tracker.accountingStatus = other.accountingStatus) : SameAccount tracker other := by
  have same : ∀ meter : Meter, meter.count tracker = meter.count other :=
    fun meter => UInt32.toNat_inj.1 (counts meter)
  refine ⟨?_, same .turns, status⟩
  have input := same .inputTokens
  have output := same .outputTokens
  have creation := same .cacheCreationInputTokens
  have cached := same .cacheReadInputTokens
  obtain ⟨_, ⟨_, _, _, _⟩, _, _⟩ := tracker
  obtain ⟨_, ⟨_, _, _, _⟩, _, _⟩ := other
  simp only [Meter.count, Meter.read] at input output creation cached
  rw [input, output, creation, cached]

/-! ## The tracker of a session -/

section Tracker

variable (meter : Meter)

theorem count_record (tracker : UsageTracker) (usage : TokenUsage) :
    meter.count (tracker.record usage) = meter.count tracker + meter.read usage := by
  cases meter <;> rfl

theorem ofMessages_append (messages more : List ConversationMessage) :
    meter.ofMessages (messages ++ more) = meter.ofMessages messages + meter.ofMessages more := by
  simp [Meter.ofMessages]

/-- While the sum fits, the tracker's count is the sum. -/
theorem count_foldl (messages : List ConversationMessage) (tracker : UsageTracker)
    (fits : (meter.count tracker).toNat + meter.ofMessages messages < 2 ^ 32) :
    (meter.count (messages.foldl UsageTracker.recordMessage tracker)).toNat =
      (meter.count tracker).toNat + meter.ofMessages messages := by
  induction messages generalizing tracker with
  | nil => rfl
  | cons message rest ih =>
      have split : meter.ofMessages (message :: rest) =
          meter.ofMessage message + meter.ofMessages rest := rfl
      rw [split] at fits ⊢
      rw [List.foldl_cons]
      have recorded : (meter.count (tracker.recordMessage message)).toNat =
          (meter.count tracker).toNat + meter.ofMessage message := by
        cases billed : message.usage with
        | none => simp [UsageTracker.recordMessage, Meter.ofMessage, billed]
        | some usage =>
            have part : meter.ofMessage message = (meter.read usage).toNat := by
              simp [Meter.ofMessage, billed]
            simp only [UsageTracker.recordMessage, billed, Option.elim_some]
            rw [count_record, UInt32.toNat_add, part, Nat.mod_eq_of_lt]
            omega
      rw [ih _ (by omega), recorded]
      omega

/-- **The tracker of a session counts its totals**, if they fit. -/
theorem count_fromSession (session : Session) (fits : meter.total session < 2 ^ 32) :
    (meter.count (.fromSession session)).toNat = meter.total session := by
  have start : ∀ status, meter.count
      { cumulative := (session.telemetry.map (·.compactedUsage)).getD {}
        turns := (session.telemetry.map (·.compactedTurns)).getD 0
        accountingStatus := status } =
      session.telemetry.elim 0 meter.compacted := by
    intro status
    cases session.telemetry with
    | none => cases meter <;> rfl
    | some telemetry => cases meter <;> rfl
  have base : (session.telemetry.elim 0 meter.compacted).toNat =
      session.telemetry.elim 0 fun telemetry => (meter.compacted telemetry).toNat := by
    cases session.telemetry <;> rfl
  unfold UsageTracker.fromSession
  rw [count_foldl meter, start, base]
  · rfl
  · rw [start, base]
    exact fits

theorem status_foldl (messages : List ConversationMessage) (tracker : UsageTracker) :
    (messages.foldl UsageTracker.recordMessage tracker).accountingStatus =
      tracker.accountingStatus := by
  induction messages generalizing tracker with
  | nil => rfl
  | cons message rest ih =>
      rw [List.foldl_cons, ih]
      unfold UsageTracker.recordMessage
      cases message.usage <;> rfl

theorem fromSession_eq (session : Session) :
    UsageTracker.fromSession session = session.messages.foldl UsageTracker.recordMessage
      { cumulative := (session.telemetry.map (·.compactedUsage)).getD {}
        turns := (session.telemetry.map (·.compactedTurns)).getD 0
        accountingStatus := effectiveAccountingStatus session } := rfl

theorem status_fromSession (session : Session) :
    (UsageTracker.fromSession session).accountingStatus = effectiveAccountingStatus session := by
  rw [fromSession_eq, status_foldl]

end Tracker

/-! ## Compaction -/

section Compaction

variable (meter : Meter) {session : Session} {config : CompactionConfig}

theorem saturatingAdd_of_fits {left right : UInt32} (fits : left.toNat + right.toNat < 2 ^ 32) :
    (saturatingAdd left right).toNat = left.toNat + right.toNat := by
  rw [saturatingAdd, if_pos fits, UInt32.toNat_add, Nat.mod_eq_of_lt fits]

theorem read_addUsage (left right : TokenUsage) (tokens : meter ≠ .turns) :
    meter.read (addUsage left right) = saturatingAdd (meter.read left) (meter.read right) := by
  cases meter with
  | turns => exact absurd rfl tokens
  | _ => rfl

theorem read_foldl_addUsage (usages : List TokenUsage) (usage : TokenUsage)
    (tokens : meter ≠ .turns)
    (fits : (meter.read usage).toNat + (usages.map fun u => (meter.read u).toNat).sum < 2 ^ 32) :
    (meter.read (usages.foldl addUsage usage)).toNat =
      (meter.read usage).toNat + (usages.map fun u => (meter.read u).toNat).sum := by
  induction usages generalizing usage with
  | nil => rfl
  | cons next rest ih =>
      rw [List.map_cons, List.sum_cons] at fits ⊢
      have step : (meter.read (addUsage usage next)).toNat =
          (meter.read usage).toNat + (meter.read next).toNat := by
        rw [read_addUsage meter usage next tokens, saturatingAdd_of_fits]
        omega
      rw [List.foldl_cons, ih _ (by omega), step]
      omega

theorem ofMessages_eq (messages : List ConversationMessage) :
    meter.ofMessages messages =
      ((messages.filterMap (·.usage)).map fun usage => (meter.read usage).toNat).sum := by
  induction messages with
  | nil => rfl
  | cons message rest ih =>
      have split : meter.ofMessages (message :: rest) =
          meter.ofMessage message + meter.ofMessages rest := rfl
      rw [split, ih]
      cases billed : message.usage with
      | none => simp [Meter.ofMessage, billed]
      | some usage => simp [Meter.ofMessage, billed]

theorem usageForMessages_total (messages : List ConversationMessage) (tokens : meter ≠ .turns)
    (fits : meter.ofMessages messages < 2 ^ 32) :
    (meter.read (usageForMessages messages)).toNat = meter.ofMessages messages := by
  have none_ : (meter.read {}).toNat = 0 := by
    cases meter with
    | turns => exact absurd rfl tokens
    | _ => rfl
  rw [ofMessages_eq] at fits ⊢
  unfold usageForMessages
  rw [read_foldl_addUsage meter _ _ tokens, none_, Nat.zero_add]
  rw [none_, Nat.zero_add]
  exact fits

theorem turns_ofMessages (messages : List ConversationMessage) :
    Meter.turns.ofMessages messages =
      (messages.filter fun message => message.usage.isSome).length := by
  induction messages with
  | nil => rfl
  | cons message rest ih =>
      have split : Meter.turns.ofMessages (message :: rest) =
          Meter.turns.ofMessage message + Meter.turns.ofMessages rest := rfl
      have one : (Meter.turns.read {}).toNat = 1 := rfl
      rw [split, ih]
      cases billed : message.usage with
      | none => simp [Meter.ofMessage, billed]
      | some usage =>
          simp [Meter.ofMessage, billed, Meter.read]
          omega

theorem turnsForMessages_total (messages : List ConversationMessage)
    (fits : Meter.turns.ofMessages messages < 2 ^ 32) :
    (turnsForMessages messages).toNat = Meter.turns.ofMessages messages := by
  rw [turns_ofMessages] at fits ⊢
  unfold turnsForMessages
  rw [if_pos fits, UInt32.toNat_ofNat_of_lt' fits]

/-- The messages of a session that is compacted: what leads, what goes, what stays. -/
theorem messages_parts (compacts : shouldCompact session config) :
    session.messages = session.messages.take (compactedSummaryPrefixLen session) ++
      removedMessages session config ++ preservedMessages session config := by
  have long : config.preserveRecentMessages <
      session.messages.length - compactedSummaryPrefixLen session := by
    unfold shouldCompact at compacts
    simp only [Bool.and_eq_true, decide_eq_true_eq, List.length_drop] at compacts
    exact compacts.1
  have within : compactedSummaryPrefixLen session ≤ keepFrom session config := by
    unfold keepFrom
    omega
  unfold removedMessages preservedMessages
  have lead : session.messages.take (compactedSummaryPrefixLen session) =
      (session.messages.take (keepFrom session config)).take
        (compactedSummaryPrefixLen session) := by
    rw [List.take_take, Nat.min_eq_left within]
  rw [lead, List.take_append_drop, List.take_append_drop]

/-- What leads has no part in any meter. -/
theorem leading_unbilled (unbilled : LeadingUnbilled session) :
    meter.ofMessages (session.messages.take (compactedSummaryPrefixLen session)) = 0 := by
  unfold compactedSummaryPrefixLen existingSummary
  split
  · rename_i present
    cases messages : session.messages with
    | nil => rfl
    | cons message rest =>
        rw [messages, List.head?_cons, Option.bind_some] at present
        have none_ := unbilled message (by rw [messages]; rfl) present
        simp [Meter.ofMessages, Meter.ofMessage, none_]
  · rfl

/-- **A compaction keeps every total** that fits. -/
theorem total_compactSession (fits : Fits session) (unbilled : LeadingUnbilled session) :
    meter.total (compactSession session config).compactedSession = meter.total session := by
  unfold compactSession
  dsimp only
  split
  · rfl
  · rename_i compacts
    rw [Bool.not_eq_true, Bool.not_eq_false'] at compacts
    have parts := messages_parts compacts
    have sum : meter.ofMessages session.messages =
        meter.ofMessages (removedMessages session config) +
          meter.ofMessages (preservedMessages session config) := by
      conv_lhs => rw [parts]
      rw [ofMessages_append, ofMessages_append, leading_unbilled meter unbilled, Nat.zero_add]
    have room := fits meter
    unfold Meter.total at room ⊢
    rw [sum] at room ⊢
    have kept : meter.ofMessages (continuationMessage
        (mergeCompactSummaries (existingSummary session)
          (summarizeMessages (removedMessages session config)))
        (preservedMessages session config ≠ []) :: preservedMessages session config) =
          meter.ofMessages (preservedMessages session config) := by
      exact Nat.zero_add _
    dsimp only
    rw [kept, Option.elim_some]
    have folded : (meter.compacted
        { compactedUsage := addUsage (session.telemetry.getD .default).compactedUsage
            (usageForMessages (removedMessages session config))
          compactedTurns := (session.telemetry.getD .default).compactedTurns +
            turnsForMessages (removedMessages session config)
          accountingStatus := effectiveAccountingStatus session }).toNat =
        (meter.compacted (session.telemetry.getD .default)).toNat +
          meter.ofMessages (removedMessages session config) := by
      have before : (meter.compacted (session.telemetry.getD .default)).toNat =
          session.telemetry.elim 0 fun telemetry => (meter.compacted telemetry).toNat := by
        cases session.telemetry with
        | none => cases meter <;> rfl
        | some telemetry => rfl
      rw [← before] at room
      by_cases isTurns : meter = .turns
      · subst isTurns
        have turns := turnsForMessages_total (removedMessages session config) (by omega)
        simp only [Meter.compacted] at room ⊢
        rw [UInt32.toNat_add, turns, Nat.mod_eq_of_lt (by omega)]
      · have tokens := usageForMessages_total meter (removedMessages session config) isTurns
          (by omega)
        have field : ∀ telemetry : SessionTelemetry,
            meter.compacted telemetry = meter.read telemetry.compactedUsage := by
          intro telemetry
          cases meter with
          | turns => exact absurd rfl isTurns
          | _ => rfl
        rw [field] at room ⊢
        rw [field, read_addUsage meter _ _ isTurns, saturatingAdd_of_fits (by omega), tokens]
    rw [folded]
    cases session.telemetry with
    | none =>
        have nothing : (meter.compacted .default).toNat = 0 := by cases meter <;> rfl
        simp only [Option.getD_none, Option.elim_none]
        omega
    | some telemetry =>
        simp only [Option.getD_some, Option.elim_some]
        omega

theorem effectiveAccountingStatus_compactSession :
    effectiveAccountingStatus (compactSession session config).compactedSession =
      effectiveAccountingStatus session := by
  unfold compactSession
  dsimp only
  split <;> rfl

theorem leadingUnbilled_compactSession (unbilled : LeadingUnbilled session) :
    LeadingUnbilled (compactSession session config).compactedSession := by
  unfold compactSession
  dsimp only
  split
  · exact unbilled
  · intro message first _
    cases first
    rfl

/-- The session after one compaction after the other. -/
def compactAll (session : Session) (configs : List CompactionConfig) : Session :=
  configs.foldl (fun session config => (compactSession session config).compactedSession) session

/-- What a compaction keeps, kept by any number of them. -/
theorem compactAll_totals (configs : List CompactionConfig) (session : Session)
    (fits : Fits session) (unbilled : LeadingUnbilled session) :
    (∀ meter : Meter, meter.total (compactAll session configs) = meter.total session) ∧
      effectiveAccountingStatus (compactAll session configs) =
        effectiveAccountingStatus session := by
  induction configs generalizing session with
  | nil => exact ⟨fun _ => rfl, rfl⟩
  | cons config configs ih =>
      have same : ∀ meter : Meter,
          meter.total (compactSession session config).compactedSession = meter.total session :=
        fun meter => total_compactSession meter fits unbilled
      have fitsNext : Fits (compactSession session config).compactedSession := by
        intro meter
        rw [same meter]
        exact fits meter
      obtain ⟨totals, status⟩ := ih _ fitsNext (leadingUnbilled_compactSession unbilled)
      refine ⟨fun meter => ?_, ?_⟩
      · exact (totals meter).trans (same meter)
      · exact status.trans effectiveAccountingStatus_compactSession

/-- **Compactions do not change what `from_session` counts.** -/
theorem sameAccount_compactAll (configs : List CompactionConfig) (fits : Fits session)
    (unbilled : LeadingUnbilled session) :
    SameAccount (.fromSession (compactAll session configs)) (.fromSession session) := by
  obtain ⟨totals, status⟩ := compactAll_totals configs session fits unbilled
  apply sameAccount_of_counts
  · intro meter
    rw [count_fromSession meter session (fits meter), count_fromSession meter _, totals meter]
    rw [totals meter]
    exact fits meter
  · rw [status_fromSession, status_fromSession, status]

end Compaction

/-! ## The live tracker -/

section Live

variable {World : Type}

theorem sameAccount_refl (tracker : UsageTracker) : SameAccount tracker tracker := ⟨rfl, rfl, rfl⟩

theorem sameAccount_recordMessage {tracker other : UsageTracker} (same : SameAccount tracker other)
    (message : ConversationMessage) :
    SameAccount (tracker.recordMessage message) (other.recordMessage message) := by
  obtain ⟨cumulative, turns, status⟩ := same
  unfold UsageTracker.recordMessage
  cases message.usage with
  | none => exact ⟨cumulative, turns, status⟩
  | some usage =>
      refine ⟨?_, ?_, status⟩
      · show tracker.cumulative.plus usage = other.cumulative.plus usage
        rw [cumulative]
      · show tracker.turns + 1 = other.turns + 1
        rw [turns]

/-- A message that is not the system's is no continuation, wherever it is put. -/
theorem existingSummary_push (session : Session) {message : ConversationMessage}
    (spoken : message.role ≠ .system) :
    existingSummary (session.push message) = existingSummary session := by
  unfold existingSummary Session.push
  cases messages : session.messages with
  | nil =>
      show extractExistingCompactedSummary message = none
      rw [extractExistingCompactedSummary, if_pos spoken]
  | cons first rest => rfl

theorem effectiveAccountingStatus_push (session : Session) {message : ConversationMessage}
    (spoken : message.role ≠ .system) :
    effectiveAccountingStatus (session.push message) = effectiveAccountingStatus session := by
  have same := existingSummary_push session spoken
  unfold effectiveAccountingStatus sessionHasCompactedSummary compactedSummaryPrefixLen
  rw [same]
  rfl

/-- The tracker of a session with one message more. -/
theorem fromSession_push {session : Session} {message : ConversationMessage}
    (spoken : message.role ≠ .system) :
    SameAccount (.fromSession (session.push message))
      ((UsageTracker.fromSession session).recordMessage message) := by
  have status := effectiveAccountingStatus_push session spoken
  have start : UsageTracker.fromSession (session.push message) =
      (UsageTracker.fromSession session).recordMessage message := by
    rw [fromSession_eq, status, fromSession_eq]
    exact List.foldl_append ..
  rw [start]
  exact sameAccount_refl _

/-- The live tracker counts what the session says. -/
def Tracked (runtime : ConversationRuntime World) : Prop :=
  SameAccount runtime.usageTracker (.fromSession runtime.session)

theorem SameAccount.trans {first second third : UsageTracker} (left : SameAccount first second)
    (right : SameAccount second third) : SameAccount first third :=
  ⟨left.cumulative.trans right.cumulative, left.turns.trans right.turns,
    left.status.trans right.status⟩

theorem SameAccount.symm {first second : UsageTracker} (same : SameAccount first second) :
    SameAccount second first :=
  ⟨same.cumulative.symm, same.turns.symm, same.status.symm⟩

/-- A message is pushed and recorded. -/
theorem tracked_push {runtime : ConversationRuntime World} (message : ConversationMessage)
    (tracked : Tracked runtime) (spoken : message.role ≠ .system) :
    SameAccount (runtime.usageTracker.recordMessage message)
      (.fromSession (runtime.session.push message)) :=
  (sameAccount_recordMessage tracked message).trans (fromSession_push spoken).symm

theorem tracked_loopInvariant :
    LoopInvariant fun runtime : ConversationRuntime World => Tracked runtime where
  world _ _ tracked := tracked
  prompt _ _ tracked := tracked
  request _ _ tracked := tracked
  answer runtime message unbilled tracked := by
    have spoken : message.role ≠ .system := by
      rcases unbilled.role with isUser | isTool
      · rw [isUser]
        nofun
      · rw [isTool]
        nofun
    have pushed := tracked_push message tracked spoken
    unfold UsageTracker.recordMessage at pushed
    rw [unbilled.usage] at pushed
    exact pushed
  reply runtime blocks usage tracked :=
    tracked_push (ConversationMessage.assistantWithUsage blocks usage) tracked nofun

end Live

/-- **Usage survives compaction and restart**: where the totals fit, the tracker of a
session that was compacted any number of times is that of the session; and whatever is
asked of a runtime, its tracker is that of its session. -/
theorem usage_survives {World : Type} (env : Environment World) (session : Session)
    (systemPrompt : List String) (maxIterations : Nat) (world : World)
    (calls : List (Call World)) (compacted : Session) (configs : List CompactionConfig)
    (fits : Fits compacted) (unbilled : LeadingUnbilled compacted) :
    SameAccount (.fromSession (compactAll compacted configs)) (.fromSession compacted) ∧
      let runtime := runCalls env calls
        ((ConversationRuntime.new session systemPrompt world).withMaxIterations maxIterations)
      SameAccount runtime.usageTracker (.fromSession runtime.session) := by
  refine ⟨sameAccount_compactAll configs fits unbilled, ?_⟩
  exact tracked_loopInvariant.runCalls env calls _ (sameAccount_refl _)

/-! ## Two replies, one compacted away -/

/-- Two replies with usage, as the first one is compacted away. -/
def twoReplies : Session where
  messages :=
    [ConversationMessage.assistantWithUsage [.text "older"] (some ⟨7, 3, 1, 2⟩),
      ConversationMessage.assistantWithUsage [.text "recent"] (some ⟨5, 2, 0, 1⟩)]

theorem usage_survives_twoReplies :
    (UsageTracker.fromSession (compactAll twoReplies [⟨1, 1⟩, ⟨0, 1⟩])).cumulative =
      ⟨12, 5, 1, 3⟩ := by
  have fits : Fits twoReplies := by
    intro meter
    cases meter <;> decide
  have unbilled : LeadingUnbilled twoReplies := by
    intro message first summary
    cases first
    cases summary
  exact (@usage_survives Unit
    { stream := fun _ world => (world, .ok []), execute := fun _ _ world => (world, .ok "")
      runPreToolUse := fun _ _ world => (world, ⟨false, []⟩)
      runPostToolUse := fun _ _ _ _ world => (world, ⟨false, []⟩) }
    {} [] 8 () [] twoReplies [⟨1, 1⟩, ⟨0, 1⟩] fits unbilled).1.cumulative

end Openyak.Runtime
