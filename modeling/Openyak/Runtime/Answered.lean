/-
# Runtime.Answered -- every action block has its answer behind it

A list of blocks is `Answered` when every tool use has exactly one later result
with its id and every user-input request a later response with its id.  The
second half is what the session's scan computes: nothing is awaited
(`requestsAnswered_iff`).

A message of the model followed by answers to its blocks, or to a first part of
them, keeps what was answered (`toolsAnswered_append_answers`,
`awaited_append_answers`).
-/
import Openyak.Runtime.Session
import Mathlib.Data.List.Basic
import Mathlib.Data.List.Nodup

namespace Openyak.Runtime

set_option autoImplicit false

/-! ## Ids -/

def ContentBlock.toolUseId? : ContentBlock → Option String
  | .toolUse id _ _ => some id
  | _ => none

def ContentBlock.resultId? : ContentBlock → Option String
  | .toolResult id _ _ _ => some id
  | _ => none

def ContentBlock.requestId? : ContentBlock → Option String
  | .userInputRequest id _ _ _ => some id
  | _ => none

def ContentBlock.responseId? : ContentBlock → Option String
  | .userInputResponse id _ _ => some id
  | _ => none

/-- The blocks that wait for an answer. -/
def ContentBlock.isAction : ContentBlock → Bool
  | .toolUse .. | .userInputRequest .. => true
  | _ => false

def toolUseIds (blocks : List ContentBlock) : List String :=
  blocks.filterMap ContentBlock.toolUseId?

def resultIds (blocks : List ContentBlock) : List String :=
  blocks.filterMap ContentBlock.resultId?

def requestIds (blocks : List ContentBlock) : List String :=
  blocks.filterMap ContentBlock.requestId?

def responseIds (blocks : List ContentBlock) : List String :=
  blocks.filterMap ContentBlock.responseId?

/-- All blocks of a session, in order. -/
def allBlocks (messages : List ConversationMessage) : List ContentBlock :=
  messages.flatMap ConversationMessage.blocks

@[simp] theorem toolUseIds_append (xs ys : List ContentBlock) :
    toolUseIds (xs ++ ys) = toolUseIds xs ++ toolUseIds ys := List.filterMap_append

@[simp] theorem resultIds_append (xs ys : List ContentBlock) :
    resultIds (xs ++ ys) = resultIds xs ++ resultIds ys := List.filterMap_append

@[simp] theorem requestIds_append (xs ys : List ContentBlock) :
    requestIds (xs ++ ys) = requestIds xs ++ requestIds ys := List.filterMap_append

@[simp] theorem responseIds_append (xs ys : List ContentBlock) :
    responseIds (xs ++ ys) = responseIds xs ++ responseIds ys := List.filterMap_append

@[simp] theorem allBlocks_append (xs ys : List ConversationMessage) :
    allBlocks (xs ++ ys) = allBlocks xs ++ allBlocks ys := List.flatMap_append

/-! ## Answered blocks -/

/-- Every tool use has exactly one result with its id behind it. -/
def ToolsAnswered : List ContentBlock → Prop
  | [] => True
  | .toolUse id _ _ :: rest => (resultIds rest).count id = 1 ∧ ToolsAnswered rest
  | _ :: rest => ToolsAnswered rest

/-- Every user-input request has a response with its id behind it. -/
def RequestsAnswered : List ContentBlock → Prop
  | [] => True
  | .userInputRequest id _ _ _ :: rest => id ∈ responseIds rest ∧ RequestsAnswered rest
  | _ :: rest => RequestsAnswered rest

instance ToolsAnswered.decide : (blocks : List ContentBlock) → Decidable (ToolsAnswered blocks)
  | [] => isTrue trivial
  | .toolUse id _ _ :: rest =>
      have := ToolsAnswered.decide rest
      inferInstanceAs (Decidable ((resultIds rest).count id = 1 ∧ ToolsAnswered rest))
  | .text _ :: rest | .toolResult .. :: rest | .userInputRequest .. :: rest
  | .userInputResponse .. :: rest => ToolsAnswered.decide rest

instance RequestsAnswered.decide :
    (blocks : List ContentBlock) → Decidable (RequestsAnswered blocks)
  | [] => isTrue trivial
  | .userInputRequest id _ _ _ :: rest =>
      have := RequestsAnswered.decide rest
      inferInstanceAs (Decidable (id ∈ responseIds rest ∧ RequestsAnswered rest))
  | .text _ :: rest | .toolUse .. :: rest | .toolResult .. :: rest
  | .userInputResponse .. :: rest => RequestsAnswered.decide rest

structure Answered (blocks : List ContentBlock) : Prop where
  tools : ToolsAnswered blocks
  requests : RequestsAnswered blocks

/-- No id is used twice. -/
structure UniqueIds (blocks : List ContentBlock) : Prop where
  tools : (toolUseIds blocks).Nodup
  requests : (requestIds blocks).Nodup

theorem toolsAnswered_append {xs ys : List ContentBlock} (left : ToolsAnswered xs)
    (apart : ∀ id ∈ toolUseIds xs, id ∉ resultIds ys) (right : ToolsAnswered ys) :
    ToolsAnswered (xs ++ ys) := by
  induction xs with
  | nil => exact right
  | cons block xs ih =>
      cases block with
      | toolUse id name input =>
          obtain ⟨one, left⟩ := left
          have fresh := apart id (by simp [toolUseIds, ContentBlock.toolUseId?])
          refine ⟨?_, ih left fun id' member => apart id' ?_⟩
          · change (resultIds (xs ++ ys)).count id = 1
            rw [resultIds_append, List.count_append, one, List.count_eq_zero.2 fresh]
          · simp only [toolUseIds, List.filterMap_cons, ContentBlock.toolUseId?]
            exact List.mem_cons_of_mem _ member
      | text _ => exact ih left apart
      | toolResult _ _ _ _ => exact ih left apart
      | userInputRequest _ _ _ _ => exact ih left apart
      | userInputResponse _ _ _ => exact ih left apart

/-! ## What a scan keeps -/

def awaited (blocks : List ContentBlock) : List UserInputRequest := blocks.foldl awaitBlock []

theorem awaiting_eq (messages : List ConversationMessage) :
    awaiting messages = awaited (allBlocks messages) := by
  simp [awaiting, awaited, allBlocks, List.foldl_flatMap]

/-- What was pending stays unless it is answered; what is new is scanned alone. -/
theorem foldl_awaitBlock (pending : List UserInputRequest) (blocks : List ContentBlock) :
    blocks.foldl awaitBlock pending =
      (pending.filter fun request => request.requestId ∉ responseIds blocks) ++
        awaited blocks := by
  induction blocks generalizing pending with
  | nil => simp [awaited, responseIds]
  | cons block blocks ih =>
      have scan : awaited (block :: blocks) = blocks.foldl awaitBlock (awaitBlock [] block) := rfl
      rw [List.foldl_cons, ih, scan, ih (awaitBlock [] block)]
      cases block with
      | userInputRequest id prompt options freeform =>
          simp [awaitBlock, responseIds, ContentBlock.responseId?, List.append_assoc]
      | userInputResponse id content selected =>
          simp [awaitBlock, responseIds, ContentBlock.responseId?, List.filter_filter,
            Bool.and_comm]
      | text _ => simp [awaitBlock, responseIds, ContentBlock.responseId?]
      | toolUse _ _ _ => simp [awaitBlock, responseIds, ContentBlock.responseId?]
      | toolResult _ _ _ _ => simp [awaitBlock, responseIds, ContentBlock.responseId?]

theorem awaited_append (xs ys : List ContentBlock) :
    awaited (xs ++ ys) =
      ((awaited xs).filter fun request => request.requestId ∉ responseIds ys) ++ awaited ys := by
  rw [awaited, List.foldl_append, foldl_awaitBlock]
  rfl

/-- **A session is answered when its scan keeps nothing.** -/
theorem requestsAnswered_iff (blocks : List ContentBlock) :
    RequestsAnswered blocks ↔ awaited blocks = [] := by
  induction blocks with
  | nil => simp [RequestsAnswered, awaited]
  | cons block blocks ih =>
      have scan : awaited (block :: blocks) = awaited ([block] ++ blocks) := rfl
      rw [scan, awaited_append, List.append_eq_nil_iff, ← ih]
      cases block with
      | userInputRequest id prompt options freeform =>
          simp [RequestsAnswered, awaited, awaitBlock]
      | userInputResponse _ _ _ => simp [RequestsAnswered, awaited, awaitBlock]
      | text _ => simp [RequestsAnswered, awaited, awaitBlock]
      | toolUse _ _ _ => simp [RequestsAnswered, awaited, awaitBlock]
      | toolResult _ _ _ _ => simp [RequestsAnswered, awaited, awaitBlock]

/-! ## A message and its answers -/

def ContentBlock.request? : ContentBlock → Option UserInputRequest
  | .userInputRequest id prompt options allowFreeform => some ⟨id, prompt, options, allowFreeform⟩
  | _ => none

/-- A message of the model: no result and no response in it. -/
def Unanswering (blocks : List ContentBlock) : Prop :=
  resultIds blocks = [] ∧ responseIds blocks = []

theorem unanswering_append {xs ys : List ContentBlock} :
    Unanswering (xs ++ ys) ↔ Unanswering xs ∧ Unanswering ys := by
  simp only [Unanswering, resultIds_append, responseIds_append, List.append_eq_nil_iff]
  tauto

/-- The answers to a list of blocks, block by block. -/
structure AnswersTo (blocks answers : List ContentBlock) : Prop where
  results : resultIds answers = toolUseIds blocks
  responses : responseIds answers = requestIds blocks
  tools : toolUseIds answers = []
  requests : requestIds answers = []

theorem answersTo_append {xs ys answers answers' : List ContentBlock}
    (left : AnswersTo xs answers) (right : AnswersTo ys answers') :
    AnswersTo (xs ++ ys) (answers ++ answers') := by
  refine ⟨?_, ?_, ?_, ?_⟩
  · rw [resultIds_append, toolUseIds_append, left.results, right.results]
  · rw [responseIds_append, requestIds_append, left.responses, right.responses]
  · rw [toolUseIds_append, left.tools, right.tools, List.append_nil]
  · rw [requestIds_append, left.requests, right.requests, List.append_nil]

theorem toolsAnswered_of_no_tools {blocks : List ContentBlock} (none : toolUseIds blocks = []) :
    ToolsAnswered blocks := by
  induction blocks with
  | nil => trivial
  | cons block blocks ih =>
      cases block with
      | toolUse id name input => cases none
      | text _ => exact ih none
      | toolResult _ _ _ _ => exact ih none
      | userInputRequest _ _ _ _ => exact ih none
      | userInputResponse _ _ _ => exact ih none

/-- Tool uses with one result each behind all of them. -/
theorem toolsAnswered_message {blocks answers : List ContentBlock}
    (unanswering : resultIds blocks = []) (silent : toolUseIds answers = [])
    (once : ∀ id ∈ toolUseIds blocks, (resultIds answers).count id = 1) :
    ToolsAnswered (blocks ++ answers) := by
  induction blocks with
  | nil => exact toolsAnswered_of_no_tools silent
  | cons block blocks ih =>
      cases block with
      | toolUse id name input =>
          refine ⟨?_, ih unanswering fun id' member => once id' (List.mem_cons_of_mem _ member)⟩
          change (resultIds (blocks ++ answers)).count id = 1
          have none : resultIds blocks = [] := unanswering
          rw [resultIds_append, none, List.nil_append]
          exact once id List.mem_cons_self
      | toolResult _ _ _ _ => cases unanswering
      | text _ => exact ih unanswering once
      | userInputRequest _ _ _ _ => exact ih unanswering once
      | userInputResponse _ _ _ => exact ih unanswering once

/-- **A message of which all tool uses are answered keeps the tools answered.** -/
theorem toolsAnswered_append_answers {before blocks answers : List ContentBlock}
    (answered : ToolsAnswered before) (unanswering : Unanswering blocks)
    (silent : toolUseIds answers = []) (results : resultIds answers = toolUseIds blocks)
    (unique : (toolUseIds (before ++ blocks)).Nodup) :
    ToolsAnswered (before ++ (blocks ++ answers)) := by
  rw [toolUseIds_append, List.nodup_append] at unique
  obtain ⟨-, nodup, apart⟩ := unique
  refine toolsAnswered_append answered (fun id member => ?_)
    (toolsAnswered_message unanswering.1 silent fun id member => ?_)
  · rw [resultIds_append, unanswering.1, List.nil_append, results]
    intro again
    exact apart id member id again rfl
  · rw [results]
    exact List.count_eq_one_of_mem nodup member

theorem awaited_of_unanswering {blocks : List ContentBlock} (silent : responseIds blocks = []) :
    awaited blocks = blocks.filterMap ContentBlock.request? := by
  induction blocks with
  | nil => rfl
  | cons block blocks ih =>
      have scan : awaited (block :: blocks) = awaited ([block] ++ blocks) := rfl
      rw [scan, awaited_append]
      cases block with
      | userInputResponse _ _ _ => cases silent
      | userInputRequest id prompt options freeform =>
          have none : responseIds blocks = [] := silent
          rw [none, ih none]
          simp [awaited, awaitBlock, ContentBlock.request?]
      | text _ => exact ih silent
      | toolUse _ _ _ => exact ih silent
      | toolResult _ _ _ _ => exact ih silent

theorem requestIds_eq (blocks : List ContentBlock) :
    requestIds blocks =
      (blocks.filterMap ContentBlock.request?).map UserInputRequest.requestId := by
  rw [requestIds, List.map_filterMap]
  refine List.filterMap_congr fun block _ => ?_
  cases block <;> rfl

theorem awaited_of_no_requests {blocks : List ContentBlock} (none : requestIds blocks = []) :
    awaited blocks = [] := by
  induction blocks with
  | nil => rfl
  | cons block blocks ih =>
      have scan : awaited (block :: blocks) = awaited ([block] ++ blocks) := rfl
      rw [scan, awaited_append]
      cases block with
      | userInputRequest _ _ _ _ => cases none
      | userInputResponse _ _ _ => rw [ih none]; simp [awaited, awaitBlock]
      | text _ => rw [ih none]; simp [awaited, awaitBlock]
      | toolUse _ _ _ => rw [ih none]; simp [awaited, awaitBlock]
      | toolResult _ _ _ _ => rw [ih none]; simp [awaited, awaitBlock]

/-- **What is awaited after a message and the answers to its first part** is at
most the requests of the rest. -/
theorem awaited_append_answers {before done rest answers : List ContentBlock}
    (nothing : awaited before = []) (unanswering : Unanswering (done ++ rest))
    (answersTo : AnswersTo done answers) :
    (awaited (before ++ (done ++ rest ++ answers))).length ≤ (requestIds rest).length := by
  rw [awaited_append, nothing, List.filter_nil, List.nil_append, awaited_append,
    awaited_of_unanswering unanswering.2, awaited_of_no_requests answersTo.requests,
    List.append_nil, List.filterMap_append, List.filter_append, answersTo.responses]
  have answered : (done.filterMap ContentBlock.request?).filter
      (fun request => request.requestId ∉ requestIds done) = [] := by
    refine List.filter_eq_nil_iff.2 fun request member => ?_
    have held : request.requestId ∈ requestIds done := by
      rw [requestIds_eq]
      exact List.mem_map_of_mem member
    simp [held]
  rw [answered, List.nil_append, requestIds_eq rest, List.length_map]
  exact List.length_filter_le _ _

end Openyak.Runtime
