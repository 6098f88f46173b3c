/-
# Runtime.CompactPairs -- a compaction cuts by count, between a call and its result too

What a compaction keeps are the last messages as they were, as many as it is told to,
behind one message of text (`compactSession_messages`).  Where the cut falls between a
tool use and its result, or a request and its response, the answer stays and what it
answers goes; everything else that was paired stays paired (`preceded_compactSession`).
-/
import Openyak.Runtime.Compact
import Openyak.Runtime.Answered

namespace Openyak.Runtime

set_option autoImplicit false

/-! ## Answers behind what they answer -/

/-- Blocks that ask under an id, and blocks that answer under it. -/
structure Pairing where
  asks : ContentBlock → Option String
  answers : ContentBlock → Option String

def toolPairing : Pairing := ⟨ContentBlock.toolUseId?, ContentBlock.resultId?⟩

def inputPairing : Pairing := ⟨ContentBlock.requestId?, ContentBlock.responseId?⟩

namespace Pairing

variable (pairing : Pairing)

/-- Before every answer there is a block that asks under its id. -/
def Preceded (blocks : List ContentBlock) : Prop :=
  ∀ before block after id, blocks = before ++ block :: after → pairing.answers block = some id →
    id ∈ before.filterMap pairing.asks

/-- An answer among `kept` whose id is asked for in `removed`, and not before it in `kept`. -/
def Straddles (removed kept : List ContentBlock) : Prop :=
  ∃ before block after id, kept = before ++ block :: after ∧ pairing.answers block = some id ∧
    id ∈ removed.filterMap pairing.asks ∧ id ∉ before.filterMap pairing.asks

variable {pairing}

/-- **What remains of a paired list is paired exactly when no pair straddles the cut.** -/
theorem preceded_drop {removed kept : List ContentBlock}
    (paired : pairing.Preceded (removed ++ kept)) :
    pairing.Preceded kept ↔ ¬pairing.Straddles removed kept := by
  constructor
  · rintro preceded ⟨before, block, after, id, parts, answers, -, absent⟩
    exact absent (preceded before block after id parts answers)
  · intro whole before block after id parts answers
    by_contra absent
    have asked : id ∈ (removed ++ before).filterMap pairing.asks := by
      refine paired (removed ++ before) block after id ?_ answers
      rw [parts, List.append_assoc]
    rw [List.filterMap_append, List.mem_append] at asked
    have askedBefore : id ∈ removed.filterMap pairing.asks := asked.resolve_right absent
    exact whole ⟨before, block, after, id, parts, answers, askedBefore, absent⟩

/-- `Preceded`, computed: the ids asked for so far are carried along. -/
def precededFrom (pairing : Pairing) (asked : List String) : List ContentBlock → Bool
  | [] => true
  | block :: rest =>
      (pairing.answers block).all (asked.contains ·) &&
        precededFrom pairing (asked ++ (pairing.asks block).toList) rest

theorem precededFrom_iff (asked : List String) (blocks : List ContentBlock) :
    precededFrom pairing asked blocks ↔
      ∀ before block after id, blocks = before ++ block :: after →
        pairing.answers block = some id → id ∈ asked ++ before.filterMap pairing.asks := by
  induction blocks generalizing asked with
  | nil => simp [precededFrom]
  | cons first rest ih =>
      rw [precededFrom, Bool.and_eq_true, ih]
      constructor
      · rintro ⟨here, later⟩ before block after id parts answers
        cases before with
        | nil =>
            obtain ⟨rfl, rfl⟩ := List.cons.inj parts
            rw [answers] at here
            simpa using here
        | cons head before =>
            obtain ⟨rfl, tail⟩ := List.cons.inj parts
            have found := later before block after id tail answers
            cases asks : pairing.asks first <;> simpa [asks] using found
      · intro preceded
        constructor
        · cases answers : pairing.answers first with
          | none => rfl
          | some id => simpa using preceded [] first rest id rfl answers
        · intro before block after id parts answers
          have found := preceded (first :: before) block after id (by rw [parts]; rfl) answers
          cases asks : pairing.asks first <;> simpa [asks] using found

theorem preceded_iff (blocks : List ContentBlock) :
    pairing.Preceded blocks ↔ precededFrom pairing [] blocks := by
  rw [precededFrom_iff]
  rfl

/-- A block that neither asks nor answers changes nothing in front. -/
theorem preceded_cons {block : ContentBlock} {blocks : List ContentBlock}
    (asks : pairing.asks block = none) (answers : pairing.answers block = none) :
    pairing.Preceded (block :: blocks) ↔ pairing.Preceded blocks := by
  constructor
  · intro preceded before found after id parts answered
    have inner := preceded (block :: before) found after id (by rw [parts, List.cons_append])
      answered
    rwa [List.filterMap_cons_none asks] at inner
  · intro preceded before found after id parts answered
    cases before with
    | nil =>
        obtain ⟨rfl, rfl⟩ := List.cons.inj parts
        rw [answers] at answered
        cases answered
    | cons first before =>
        obtain ⟨rfl, rest⟩ := List.cons.inj parts
        rw [List.filterMap_cons_none asks]
        exact preceded before found after id rest answered

end Pairing

/-! ## What a compaction keeps -/

section Kept

variable (session : Session) (config : CompactionConfig)

/-- **Kept by count**: the session as it is, or its last messages behind one message. -/
theorem compactSession_messages :
    (shouldCompact session config = false ∧
        (compactSession session config).compactedSession = session) ∨
      (shouldCompact session config = true ∧
        ∃ summary recent, (compactSession session config).compactedSession.messages =
          continuationMessage summary recent :: preservedMessages session config) := by
  unfold compactSession
  dsimp only
  cases compacts : shouldCompact session config with
  | false => exact Or.inl ⟨rfl, rfl⟩
  | true => exact Or.inr ⟨rfl, _, _, rfl⟩

/-- The pairs a compaction cuts apart. -/
def CutsApart (pairing : Pairing) : Prop :=
  shouldCompact session config = true ∧
    pairing.Straddles (allBlocks (session.messages.take (keepFrom session config)))
      (allBlocks (preservedMessages session config))

variable {session}

theorem preceded_compactSession {pairing : Pairing}
    (quiet : ∀ text, pairing.asks (.text text) = none ∧ pairing.answers (.text text) = none)
    (paired : pairing.Preceded (allBlocks session.messages)) :
    pairing.Preceded (allBlocks (compactSession session config).compactedSession.messages) ↔
      ¬CutsApart session config pairing := by
  unfold CutsApart
  rcases compactSession_messages session config with ⟨skips, same⟩ | ⟨compacts, summary, recent, kept⟩
  · rw [same, skips]
    constructor
    · rintro - ⟨compacts, -⟩
      cases compacts
    · intro _
      exact paired
  · have parts : allBlocks session.messages =
        allBlocks (session.messages.take (keepFrom session config)) ++
          allBlocks (preservedMessages session config) := by
      rw [← allBlocks_append, preservedMessages, List.take_append_drop]
    rw [parts] at paired
    have shown : allBlocks (continuationMessage summary recent :: preservedMessages session config) =
        .text (String.ofList (getCompactContinuationMessage summary true recent)) ::
          allBlocks (preservedMessages session config) := rfl
    rw [kept, shown, Pairing.preceded_cons (quiet _).1 (quiet _).2, Pairing.preceded_drop paired]
    constructor
    · rintro whole ⟨-, straddles⟩
      exact whole straddles
    · intro whole straddles
      exact whole ⟨compacts, straddles⟩

end Kept

/-- **Compaction keeps pairs exactly where it does not cut one apart.**  The last messages
stay as they were, as many as the configuration says; so of a session whose results all
stand behind their tool uses, a result loses its tool use exactly when the cut falls
between the two, and a response its request likewise. -/
theorem compaction_keeps_pairs (session : Session) (config : CompactionConfig)
    (tools : toolPairing.Preceded (allBlocks session.messages)) :
    ((compactSession session config).compactedSession = session ∨
        ∃ summary recent, (compactSession session config).compactedSession.messages =
          continuationMessage summary recent ::
            session.messages.drop (session.messages.length - config.preserveRecentMessages)) ∧
      (toolPairing.Preceded (allBlocks (compactSession session config).compactedSession.messages) ↔
        ¬CutsApart session config toolPairing) ∧
      (inputPairing.Preceded (allBlocks session.messages) →
        (inputPairing.Preceded
            (allBlocks (compactSession session config).compactedSession.messages) ↔
          ¬CutsApart session config inputPairing)) := by
  refine ⟨?_, ?_, ?_⟩
  · rcases compactSession_messages session config with ⟨-, same⟩ | ⟨-, kept⟩
    · exact Or.inl same
    · exact Or.inr kept
  · exact preceded_compactSession config (fun _ => ⟨rfl, rfl⟩) tools
  · exact preceded_compactSession config (fun _ => ⟨rfl, rfl⟩)

/-! ## A result without its tool use -/

def usedTool : Session where
  messages :=
    [ConversationMessage.userText "what is 2 + 2?",
      ConversationMessage.assistantWithUsage [.toolUse "tool-1" "add" "2,2"] none,
      ConversationMessage.toolResult "tool-1" "add" "4" false,
      ConversationMessage.assistantWithUsage [.text "4"] none]

theorem usedTool_preceded : toolPairing.Preceded (allBlocks usedTool.messages) := by
  rw [Pairing.preceded_iff]
  decide

/-- The last two messages are kept: the result, and what followed it. -/
theorem compaction_separates_pair :
    toolPairing.Preceded (allBlocks usedTool.messages) ∧
      ¬toolPairing.Preceded
        (allBlocks (compactSession usedTool ⟨2, 0⟩).compactedSession.messages) := by
  refine ⟨usedTool_preceded, fun kept => ?_⟩
  refine (preceded_compactSession ⟨2, 0⟩ (fun _ => ⟨rfl, rfl⟩) usedTool_preceded).1 kept ?_
  refine ⟨by decide, [], .toolResult "tool-1" "add" "4" false, [.text "4"], "tool-1", rfl, rfl, ?_, ?_⟩
  · decide
  · decide

theorem compaction_keeps_pairs_usedTool :
    toolPairing.Preceded
      (allBlocks (compactSession usedTool ⟨3, 0⟩).compactedSession.messages) := by
  refine (compaction_keeps_pairs usedTool ⟨3, 0⟩ usedTool_preceded).2.1.2 ?_
  rintro ⟨-, before, block, after, id, -, -, removed, -⟩
  have nothing : (allBlocks (usedTool.messages.take (keepFrom usedTool ⟨3, 0⟩))).filterMap
      toolPairing.asks = [] := by decide
  rw [nothing] at removed
  cases removed

end Openyak.Runtime
