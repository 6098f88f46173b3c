/-
# Cli.UserInput -- the answer to a user-input request

A request is answered at the command line's prompt, where `parseUserInputSubmission`
reads the reply, or through the server's endpoint, where the client sends the
answer ready made.  `Admissible` is what an answer should be: for this request,
and one of its options or a text where a text is allowed.

At the prompt every accepted answer is admissible, but options go by number first
and by label only when the reply is no numeral: `PlainReply` says which replies
are read as labels, numbers and texts should be (`followsRule_iff`).  The endpoint
does not look at the options.

`usize` is taken to have 64 bits.
-/
import Openyak.Runtime.Conversation
import Openyak.Server.Persistence
import Openyak.Theory.Decimal

namespace Openyak.Cli

open Openyak.Theory
open Openyak.Theory.Decimal (parseU64)
open Openyak.Runtime

set_option autoImplicit false

/-! ## The prompt -/

/-- `str::trim`. -/
def trimmed (raw : String) : String := String.ofList (Text.trim raw.toList)

/-- `str::eq_ignore_ascii_case`. -/
def eqIgnoreAsciiCase (a b : String) : Bool :=
  Text.toAsciiLowercase a.toList == Text.toAsciiLowercase b.toList

/-- `str::parse::<usize>`. -/
def parseUsize (text : String) : Option Nat := (parseU64 text.toList).map UInt64.toNat

def UserInputRequest.select (request : UserInputRequest) (option : String) : UserInputResponse :=
  { requestId := request.requestId, content := option, selectedOption := some option }

def UserInputRequest.freeform (request : UserInputRequest) (text : String) : UserInputResponse :=
  { requestId := request.requestId, content := text, selectedOption := none }

open UserInputRequest (select freeform)

/-- The option a reply selects; a numeral selects by position, `0` like `1`. -/
def selectedOption (request : UserInputRequest) (reply : String) :
    Except String (Option String) :=
  if request.options = [] then .ok none
  else
    match parseUsize reply with
    | some index =>
        match request.options[index - 1]? with
        | some option => .ok (some option)
        | none => .error ("Invalid option '" ++ reply ++ "'. Choose 1-" ++
            toString request.options.length ++ " or an exact label.")
    | none => .ok (request.options.find? (eqIgnoreAsciiCase · reply))

def parseUserInputSubmission (request : UserInputRequest) (raw : String) :
    Except String UserInputResponse :=
  let reply := trimmed raw
  if reply = "" then
    .error "Reply required. Enter a value or press Ctrl+C to keep the request pending."
  else
    match selectedOption request reply with
    | .error problem => .error problem
    | .ok (some option) => .ok (select request option)
    | .ok none =>
        if request.allowFreeform ∨ request.options = [] then .ok (freeform request reply)
        else .error ("Reply must match one of the listed options: " ++
          String.intercalate ", " request.options ++ ".")

inductive ReadOutcome where
  | submit (line : String)
  | cancel
  | exit
  deriving DecidableEq, Repr

/-- The loop of `CliUserInputPrompter::prompt` over what the editor reads; `none`
when it waits for more. -/
def promptReads (request : UserInputRequest) :
    List (Except String ReadOutcome) → Option UserInputOutcome
  | [] => none
  | .ok (.submit line) :: reads =>
      match parseUserInputSubmission request line with
      | .ok response => some (.submitted response)
      | .error _ => promptReads request reads
  | .ok .cancel :: _ => some .cancelled
  | .ok .exit :: _ => some (.unavailable "stdin closed while waiting for request-user-input")
  | .error error :: _ => some (.unavailable ("failed to read request-user-input reply: " ++ error))

def cliUserInputPrompter (interactive : Bool) (reads : List (Except String ReadOutcome))
    (request : UserInputRequest) : Option UserInputOutcome :=
  if interactive then promptReads request reads
  else some (.unavailable "interactive CLI input is unavailable in this mode")

/-! ## The endpoint -/

structure SubmitUserInputRequest where
  requestId : String
  content : String
  selectedOption : Option String := none
  deriving DecidableEq, Repr

def SubmitUserInputRequest.response (payload : SubmitUserInputRequest) : UserInputResponse :=
  ⟨payload.requestId, payload.content, payload.selectedOption⟩

/-- `submit_thread_user_input` on the thread found under the id; `failure` is the
error of writing its row. -/
def submitThreadUserInput (id : String) (thread : Option Server.ThreadInner) (now : UInt64)
    (failure : Option String) (payload : SubmitUserInputRequest) :
    Except Server.ApiError (Server.RunId × Server.ThreadInner) :=
  if Text.trim payload.content.toList = [] then
    .error (Server.badRequest "user-input content must not be empty")
  else
    match thread with
    | none => .error ⟨404, "not_found", "thread `" ++ id ++ "` not found"⟩
    | some inner =>
        match inner.submitUserInput now payload.response with
        | .error refusal => .error refusal
        | .ok admitted =>
            match failure with
            | none => .ok admitted
            | some error => .error (Server.internalError error)

/-! ## What an answer should be -/

/-- The answer is to this request: one of its options, or a text where a text is
allowed. -/
structure Admissible (request : UserInputRequest) (response : UserInputResponse) : Prop where
  names : response.requestId = request.requestId
  offered : (∃ option ∈ request.options, response.selectedOption = some option ∧
      response.content = option) ∨
    (response.selectedOption = none ∧ (request.allowFreeform = true ∨ request.options = []))

/-- A reply equal to a label up to letter case. -/
def NamesLabel (request : UserInputRequest) (reply : String) : Prop :=
  ∃ label ∈ request.options, eqIgnoreAsciiCase label reply = true

/-- A reply that is the position of `option`, counted from one. -/
def Numbers (request : UserInputRequest) (reply option : String) : Prop :=
  ∃ number, parseUsize reply = some number ∧ 0 < number ∧
    request.options[number - 1]? = some option

/-- What the prompt should make of a reply.  A label is compared with its letter
case folded, and the label itself is preferred. -/
structure FollowsRule (request : UserInputRequest) (reply : String)
    (result : Except String UserInputResponse) : Prop where
  label : reply ∈ request.options → result = .ok (select request reply)
  folded : reply ∉ request.options → NamesLabel request reply →
    ∃ label ∈ request.options, eqIgnoreAsciiCase label reply = true ∧
      result = .ok (select request label)
  number : reply ∉ request.options → ∀ option, Numbers request reply option →
    result = .ok (select request option)
  text : reply ≠ "" → ¬ NamesLabel request reply → (∀ option, ¬ Numbers request reply option) →
    request.allowFreeform = true ∨ request.options = [] →
      result = .ok (freeform request reply)
  refused : reply ∉ request.options → reply = "" ∨ (¬ NamesLabel request reply ∧
    (∀ option, ¬ Numbers request reply option) ∧
      ¬ (request.allowFreeform = true ∨ request.options = [])) →
    ∃ problem, result = .error problem

/-- A numeral that is a label stands at its own position; one that is not is
neither `0` nor, where a text is allowed, above the number of options; a label
that is no numeral comes before the others that differ from it in letter case;
and the empty reply is not a label. -/
def PlainReply (request : UserInputRequest) (reply : String) : Prop :=
  request.options = [] ∨
    ((reply ∈ request.options → reply ≠ "") ∧
      match parseUsize reply with
      | some number =>
          if reply ∈ request.options then request.options[number - 1]? = some reply
          else 0 < number ∧ (request.options.length < number → request.allowFreeform = false)
      | none => reply ∈ request.options →
          request.options.find? (eqIgnoreAsciiCase · reply) = some reply)

/-! ## Numerals have no letter case -/

theorem toLower_eq {c d : Char} (low : d.val.toNat < 65) (same : c.toLower = d.toLower) :
    c = d := by
  have still : d.toLower = d := by
    delta Char.toLower
    rw [dif_neg]
    intro upper
    have high := UInt32.le_iff_toNat_le.1 upper.1
    rw [show 'A'.val.toNat = 65 from rfl] at high
    omega
  rw [still] at same
  by_cases upper : c.val ≥ 'A'.val ∧ c.val ≤ 'Z'.val
  · delta Char.toLower at same
    rw [dif_pos upper] at same
    have shifted := congrArg (UInt32.toNat ∘ Char.val) same
    have high := UInt32.le_iff_toNat_le.1 upper.1
    have top := UInt32.le_iff_toNat_le.1 upper.2
    simp only [Function.comp, UInt32.toNat_add] at shifted
    rw [show ('a'.val - 'A'.val).toNat = 32 from by decide] at shifted
    rw [show 'A'.val.toNat = 65 from rfl] at high
    rw [show 'Z'.val.toNat = 90 from rfl] at top
    omega
  · delta Char.toLower at same
    rwa [dif_neg upper] at same

theorem toAsciiLowercase_eq {text other : List Char} (low : ∀ c ∈ text, c.val.toNat < 65)
    (same : Text.toAsciiLowercase other = Text.toAsciiLowercase text) : other = text := by
  induction text generalizing other with
  | nil => exact List.map_eq_nil_iff.1 same
  | cons c text ih =>
      cases other with
      | nil => cases same
      | cons d other =>
          obtain ⟨first, rest⟩ := List.cons.inj same
          rw [toLower_eq (low c List.mem_cons_self) first,
            ih (fun e member => low e (List.mem_cons_of_mem _ member)) rest]

theorem numeral_low {text : List Char} {value : UInt64} (parsed : parseU64 text = some value) :
    ∀ c ∈ text, c.val.toNat < 65 := by
  have ascii : ∀ c ∈ Decimal.digits text, c.val.toNat < 65 := by
    rw [parseU64] at parsed
    split at parsed
    · rename_i numeral
      intro c member
      have digit := List.all_eq_true.1 numeral.2 c member
      have top := (Char.isDigit_iff_toNat.1 digit).2
      rw [show '9'.toNat = 57 from rfl] at top
      show c.toNat < 65
      omega
    · cases parsed
  intro c member
  by_cases plus : c = '+'
  · rw [plus]
    decide
  · refine ascii c ?_
    unfold Decimal.digits
    split
    · rename_i rest
      exact (List.mem_cons.1 member).resolve_left plus
    · exact member

/-- A label equal to a numeral up to letter case is that numeral. -/
theorem numeral_label {reply label : String} {number : Nat}
    (parsed : parseUsize reply = some number) (same : eqIgnoreAsciiCase label reply = true) :
    label = reply := by
  obtain ⟨value, read, -⟩ := Option.map_eq_some_iff.1 parsed
  exact String.toList_injective (toAsciiLowercase_eq (numeral_low read) (eq_of_beq same))

theorem eqIgnoreAsciiCase_self (text : String) : eqIgnoreAsciiCase text text = true :=
  beq_self_eq_true _

theorem find_none {request : UserInputRequest} {reply : String}
    (unnamed : ¬ NamesLabel request reply) :
    request.options.find? (eqIgnoreAsciiCase · reply) = none := by
  refine List.find?_eq_none.2 fun label member same => ?_
  exact unnamed ⟨label, member, same⟩

/-! ## What the prompt makes of a reply -/

section Replies

variable {request : UserInputRequest} {raw : String}

theorem parse_empty (empty : trimmed raw = "") :
    ∃ problem, parseUserInputSubmission request raw = .error problem := by
  unfold parseUserInputSubmission
  simp only [empty, if_true]
  exact ⟨_, rfl⟩

theorem parse_of_selected {option : String} (filled : trimmed raw ≠ "")
    (selected : selectedOption request (trimmed raw) = .ok (some option)) :
    parseUserInputSubmission request raw = .ok (select request option) := by
  unfold parseUserInputSubmission
  simp only [filled, if_false, selected]

theorem parse_of_invalid {problem : String} (filled : trimmed raw ≠ "")
    (selected : selectedOption request (trimmed raw) = .error problem) :
    parseUserInputSubmission request raw = .error problem := by
  unfold parseUserInputSubmission
  simp only [filled, if_false, selected]

theorem parse_of_unselected (filled : trimmed raw ≠ "")
    (selected : selectedOption request (trimmed raw) = .ok none) :
    (request.allowFreeform = true ∨ request.options = [] →
      parseUserInputSubmission request raw = .ok (freeform request (trimmed raw))) ∧
    (¬ (request.allowFreeform = true ∨ request.options = []) →
      ∃ problem, parseUserInputSubmission request raw = .error problem) := by
  unfold parseUserInputSubmission
  simp only [filled, if_false, selected]
  constructor
  · intro allowed
    rw [if_pos allowed]
  · intro barred
    rw [if_neg barred]
    exact ⟨_, rfl⟩

theorem selected_number {number : Nat} (offered : request.options ≠ [])
    (parsed : parseUsize (trimmed raw) = some number) :
    (∀ option, request.options[number - 1]? = some option →
      selectedOption request (trimmed raw) = .ok (some option)) ∧
    (request.options[number - 1]? = none →
      ∃ problem, selectedOption request (trimmed raw) = .error problem) := by
  unfold selectedOption
  simp only [offered, if_false, parsed]
  constructor
  · intro option here
    simp only [here]
  · intro missing
    simp only [missing]
    exact ⟨_, rfl⟩

theorem selected_label (offered : request.options ≠ [])
    (parsed : parseUsize (trimmed raw) = none) :
    selectedOption request (trimmed raw) =
      .ok (request.options.find? (eqIgnoreAsciiCase · (trimmed raw))) := by
  unfold selectedOption
  simp only [offered, if_false, parsed]

theorem select_injective {option other : String}
    (same : (.ok (select request option) : Except String UserInputResponse) =
      .ok (select request other)) : option = other :=
  congrArg UserInputResponse.content (Except.ok.inj same)

/-- Without options every reply is a text. -/
theorem followsRule_open (none_offered : request.options = []) :
    FollowsRule request (trimmed raw) (parseUserInputSubmission request raw) where
  label member := by simp [none_offered] at member
  folded _ named := by
    obtain ⟨label, member, -⟩ := named
    simp [none_offered] at member
  number _ option numbers := by
    obtain ⟨number, -, -, here⟩ := numbers
    simp [none_offered] at here
  text filled _ _ allowed := by
    refine (parse_of_unselected filled ?_).1 allowed
    rw [selectedOption, if_pos none_offered]
  refused _ why := by
    obtain empty | ⟨-, -, barred⟩ := why
    · exact parse_empty empty
    · exact absurd (.inr none_offered) barred

/-- The empty reply is refused. -/
theorem followsRule_empty (empty : trimmed raw = "") :
    FollowsRule request (trimmed raw) (parseUserInputSubmission request raw) ↔
      trimmed raw ∉ request.options := by
  obtain ⟨problem, refused⟩ := @parse_empty request raw empty
  rw [refused]
  constructor
  · intro follows member
    cases follows.label member
  · intro unlisted
    refine ⟨fun member => absurd member unlisted, ?_, ?_, fun filled => absurd empty filled,
      fun _ _ => ⟨problem, rfl⟩⟩
    · rintro - ⟨label, member, same⟩
      have blank : label = trimmed raw := by
        refine String.toList_injective (toAsciiLowercase_eq ?_ (eq_of_beq same))
        rw [empty]
        exact nofun
      exact absurd (blank ▸ member) unlisted
    · rintro - option ⟨number, parsed, -⟩
      rw [empty] at parsed
      cases parsed

/-- A numeral that is a label has to stand at its own position. -/
theorem followsRule_listed {number : Nat} (filled : trimmed raw ≠ "")
    (parsed : parseUsize (trimmed raw) = some number) (listed : trimmed raw ∈ request.options) :
    FollowsRule request (trimmed raw) (parseUserInputSubmission request raw) ↔
      request.options[number - 1]? = some (trimmed raw) := by
  have offered : request.options ≠ [] := List.ne_nil_of_mem listed
  obtain ⟨chosen, missing⟩ := selected_number offered parsed
  constructor
  · intro follows
    have own := follows.label listed
    cases here : request.options[number - 1]? with
    | none =>
        obtain ⟨problem, selected⟩ := missing here
        rw [parse_of_invalid filled selected] at own
        cases own
    | some option =>
        rw [parse_of_selected filled (chosen option here)] at own
        rw [select_injective own]
  · intro here
    have result := parse_of_selected filled (chosen _ here)
    refine ⟨fun _ => result, fun unlisted => absurd listed unlisted,
      fun unlisted => absurd listed unlisted, fun _ unnamed => ?_,
      fun unlisted => absurd listed unlisted⟩
    exact absurd ⟨_, listed, eqIgnoreAsciiCase_self _⟩ unnamed

theorem numbers_iff {number : Nat} (parsed : parseUsize (trimmed raw) = some number) :
    (∃ option, Numbers request (trimmed raw) option) ↔
      0 < number ∧ number ≤ request.options.length := by
  constructor
  · rintro ⟨option, k, read, positive, here⟩
    rw [parsed] at read
    cases read
    obtain ⟨bound, -⟩ := List.getElem?_eq_some_iff.1 here
    omega
  · rintro ⟨positive, bound⟩
    exact ⟨_, number, parsed, positive, List.getElem?_eq_getElem (by omega)⟩

/-- A numeral that is no label has to be a position, or no text may be allowed. -/
theorem followsRule_unlisted {number : Nat} (offered : request.options ≠ [])
    (filled : trimmed raw ≠ "") (parsed : parseUsize (trimmed raw) = some number)
    (unlisted : trimmed raw ∉ request.options) :
    FollowsRule request (trimmed raw) (parseUserInputSubmission request raw) ↔
      0 < number ∧ (request.options.length < number → request.allowFreeform = false) := by
  have unnamed : ¬ NamesLabel request (trimmed raw) := by
    rintro ⟨label, member, same⟩
    exact unlisted (numeral_label parsed same ▸ member)
  have some_option := List.length_pos_of_ne_nil offered
  obtain ⟨chosen, missing⟩ := selected_number offered parsed
  have beyond : ¬ (0 < number ∧ number ≤ request.options.length) →
      ∀ option, ¬ Numbers request (trimmed raw) option := by
    intro outside option numbers
    exact outside ((numbers_iff parsed).1 ⟨option, numbers⟩)
  constructor
  · intro follows
    have positive : 0 < number := by
      by_contra zero
      have here : request.options[number - 1]? = some request.options[0] := by
        rw [show number - 1 = 0 by omega]
        exact List.getElem?_eq_getElem some_option
      have result := parse_of_selected filled (chosen _ here)
      have outside := beyond fun inside => zero inside.1
      by_cases allowed : request.allowFreeform = true ∨ request.options = []
      · have texted := follows.text filled unnamed outside allowed
        rw [result] at texted
        cases congrArg UserInputResponse.selectedOption (Except.ok.inj texted)
      · obtain ⟨problem, refused⟩ := follows.refused unlisted (.inr ⟨unnamed, outside, allowed⟩)
        rw [result] at refused
        cases refused
    refine ⟨positive, fun above => ?_⟩
    by_contra allowed
    have outside := beyond fun inside => by omega
    obtain ⟨problem, selected⟩ := missing (List.getElem?_eq_none (by omega))
    have texted := follows.text filled unnamed outside (.inl (Bool.eq_true_of_not_eq_false allowed))
    rw [parse_of_invalid filled selected] at texted
    cases texted
  · rintro ⟨positive, closed⟩
    refine ⟨fun listed => absurd listed unlisted, fun _ named => absurd named unnamed, ?_, ?_, ?_⟩
    · rintro - option ⟨k, read, -, here⟩
      rw [parsed] at read
      cases read
      exact parse_of_selected filled (chosen option here)
    · intro _ _ outside allowed
      have above : request.options.length < number := by
        by_contra inside
        obtain ⟨option, numbers⟩ := (numbers_iff parsed).2 ⟨positive, not_lt.1 inside⟩
        exact outside option numbers
      rw [closed above] at allowed
      exact absurd allowed (by simp [offered])
    · rintro - (empty | ⟨-, outside, -⟩)
      · exact parse_empty empty
      · have above : request.options.length < number := by
          by_contra inside
          obtain ⟨option, numbers⟩ := (numbers_iff parsed).2 ⟨positive, not_lt.1 inside⟩
          exact outside option numbers
        obtain ⟨problem, selected⟩ := missing (List.getElem?_eq_none (by omega))
        exact ⟨problem, parse_of_invalid filled selected⟩

/-- A reply that is no numeral has to find its own label first. -/
theorem followsRule_word (offered : request.options ≠ []) (filled : trimmed raw ≠ "")
    (parsed : parseUsize (trimmed raw) = none) :
    FollowsRule request (trimmed raw) (parseUserInputSubmission request raw) ↔
      (trimmed raw ∈ request.options →
        request.options.find? (eqIgnoreAsciiCase · (trimmed raw)) = some (trimmed raw)) := by
  have selected := selected_label offered parsed
  constructor
  · intro follows listed
    have own := follows.label listed
    cases found : request.options.find? (eqIgnoreAsciiCase · (trimmed raw)) with
    | none =>
        exact absurd (eqIgnoreAsciiCase_self _) (List.find?_eq_none.1 found _ listed)
    | some label =>
        rw [parse_of_selected filled (found ▸ selected)] at own
        rw [select_injective own]
  · intro first
    refine ⟨fun listed => ?_, ?_, ?_, ?_, ?_⟩
    · exact parse_of_selected filled (first listed ▸ selected)
    · rintro - ⟨named, member, same⟩
      cases found : request.options.find? (eqIgnoreAsciiCase · (trimmed raw)) with
      | none => exact absurd same (List.find?_eq_none.1 found _ member)
      | some label =>
          have alike := List.find?_some found
          exact ⟨label, List.mem_of_find?_eq_some found, alike,
            parse_of_selected filled (found ▸ selected)⟩
    · rintro - option ⟨number, read, -⟩
      rw [parsed] at read
      cases read
    · intro _ unnamed _ allowed
      exact (parse_of_unselected filled (find_none unnamed ▸ selected)).1 allowed
    · rintro - (empty | ⟨unnamed, -, barred⟩)
      · exact parse_empty empty
      · exact (parse_of_unselected filled (find_none unnamed ▸ selected)).2 barred

theorem followsRule_iff (request : UserInputRequest) (raw : String) :
    FollowsRule request (trimmed raw) (parseUserInputSubmission request raw) ↔
      PlainReply request (trimmed raw) := by
  by_cases offered : request.options = []
  · exact iff_of_true (followsRule_open offered) (.inl offered)
  rw [PlainReply, or_iff_right offered]
  by_cases empty : trimmed raw = ""
  · rw [followsRule_empty empty, empty]
    simp only [parseUsize, parseU64, Decimal.digits, String.toList_empty, ne_eq, not_true_eq_false,
      false_and, if_false, Option.map_none, imp_false]
    exact ⟨fun unlisted => ⟨unlisted, fun listed => absurd listed unlisted⟩, And.left⟩
  cases parsed : parseUsize (trimmed raw) with
  | none =>
      rw [followsRule_word offered empty parsed]
      exact ⟨fun first => ⟨fun _ => empty, first⟩, And.right⟩
  | some number =>
      by_cases listed : trimmed raw ∈ request.options
      · rw [followsRule_listed empty parsed listed]
        simp [listed, empty]
      · rw [followsRule_unlisted offered empty parsed listed]
        simp [listed]

end Replies

/-! ## Accepted answers -/

theorem select_admissible {request : UserInputRequest} {option : String}
    (offered : option ∈ request.options) : Admissible request (select request option) :=
  ⟨rfl, .inl ⟨option, offered, rfl, rfl⟩⟩

/-- Whatever the prompt accepts is admissible. -/
theorem parse_admissible {request : UserInputRequest} {raw : String} {response : UserInputResponse}
    (accepted : parseUserInputSubmission request raw = .ok response) :
    Admissible request response := by
  by_cases empty : trimmed raw = ""
  · obtain ⟨problem, refused⟩ := @parse_empty request raw empty
    rw [refused] at accepted
    cases accepted
  cases selected : selectedOption request (trimmed raw) with
  | error problem =>
      rw [parse_of_invalid empty selected] at accepted
      cases accepted
  | ok option =>
      cases option with
      | none =>
          obtain ⟨texted, barred⟩ := parse_of_unselected empty selected
          by_cases allowed : request.allowFreeform = true ∨ request.options = []
          · rw [texted allowed] at accepted
            cases accepted
            exact ⟨rfl, .inr ⟨rfl, allowed⟩⟩
          · obtain ⟨problem, refused⟩ := barred allowed
            rw [refused] at accepted
            cases accepted
      | some option =>
          rw [parse_of_selected empty selected] at accepted
          cases accepted
          refine select_admissible ?_
          rw [selectedOption] at selected
          split at selected
          · cases selected
          · split at selected
            · split at selected
              · rename_i here
                cases selected
                exact List.mem_of_getElem? here
              · cases selected
            · exact List.mem_of_find?_eq_some (Except.ok.inj selected)

theorem prompt_admissible {request : UserInputRequest} {interactive : Bool}
    {reads : List (Except String ReadOutcome)} {response : UserInputResponse}
    (submitted : cliUserInputPrompter interactive reads request = some (.submitted response)) :
    Admissible request response := by
  rw [cliUserInputPrompter] at submitted
  split at submitted
  · induction reads with
    | nil => cases submitted
    | cons read reads ih =>
        cases read with
        | error error => cases submitted
        | ok outcome =>
            cases outcome with
            | cancel => cases submitted
            | exit => cases submitted
            | submit line =>
                rw [promptReads] at submitted
                cases parsed : parseUserInputSubmission request line with
                | ok accepted =>
                    rw [parsed] at submitted
                    cases submitted
                    exact parse_admissible parsed
                | error problem =>
                    rw [parsed] at submitted
                    exact ih submitted
  · cases submitted

/-- The endpoint accepted the payload for the thread's pending request. -/
theorem submit_accepted {id : String} {thread : Option Server.ThreadInner} {now : UInt64}
    {failure : Option String} {payload : SubmitUserInputRequest}
    {admitted : Server.RunId × Server.ThreadInner} :
    submitThreadUserInput id thread now failure payload = .ok admitted ↔
      Text.trim payload.content.toList ≠ [] ∧ failure = none ∧ ∃ inner, thread = some inner ∧
        inner.submitUserInput now payload.response = .ok admitted := by
  unfold submitThreadUserInput
  by_cases blank : Text.trim payload.content.toList = []
  · simp [blank]
  · cases thread with
    | none => simp [blank]
    | some inner =>
        cases submitted : inner.submitUserInput now payload.response with
        | error refusal => simp [blank, submitted]
        | ok next => cases failure <;> simp [blank, submitted]

/-! ## Both ways to answer -/

/-- At the prompt: what is submitted is admissible, and the reply is read by the
rule. -/
structure PromptAnswers (request : UserInputRequest) (raw : String) : Prop where
  admissible : ∀ interactive reads response,
    cliUserInputPrompter interactive reads request = some (.submitted response) →
      Admissible request response
  rule : FollowsRule request (trimmed raw) (parseUserInputSubmission request raw)

/-- At the endpoint: what is accepted is admissible for the pending request. -/
def EndpointAnswers (id : String) (thread : Option Server.ThreadInner) (now : UInt64)
    (failure : Option String) (payload : SubmitUserInputRequest) : Prop :=
  ∀ admitted, submitThreadUserInput id thread now failure payload = .ok admitted →
    ∃ inner runId request, thread = some inner ∧
      inner.status = .awaitingUserInput runId request ∧ Admissible request payload.response

/-- A payload for the pending request, with some content and stored, gives an
option as its content and its selected option, or no selected option where a text
is allowed. -/
def OfferedPayload (thread : Option Server.ThreadInner) (failure : Option String)
    (payload : SubmitUserInputRequest) : Prop :=
  ∀ inner runId request, thread = some inner → inner.status = .awaitingUserInput runId request →
    request.requestId = payload.requestId → Text.trim payload.content.toList ≠ [] →
    failure = none →
      (payload.content ∈ request.options ∧ payload.selectedOption = some payload.content) ∨
      (payload.selectedOption = none ∧ (request.allowFreeform = true ∨ request.options = []))

theorem admissible_payload {request : UserInputRequest} {payload : SubmitUserInputRequest}
    (names : request.requestId = payload.requestId) :
    Admissible request payload.response ↔
      (payload.content ∈ request.options ∧ payload.selectedOption = some payload.content) ∨
      (payload.selectedOption = none ∧ (request.allowFreeform = true ∨ request.options = [])) := by
  constructor
  · rintro ⟨-, ⟨option, member, selected, content⟩ | text⟩
    · have content : payload.content = option := content
      exact .inl ⟨content ▸ member, content ▸ selected⟩
    · exact .inr text
  · rintro (⟨member, selected⟩ | text)
    · exact ⟨names.symm, .inl ⟨_, member, selected, rfl⟩⟩
    · exact ⟨names.symm, .inr text⟩

theorem endpointAnswers_iff (id : String) (thread : Option Server.ThreadInner) (now : UInt64)
    (failure : Option String) (payload : SubmitUserInputRequest) :
    EndpointAnswers id thread now failure payload ↔ OfferedPayload thread failure payload := by
  constructor
  · intro answers inner runId request found status names filled stored
    have submitted : inner.submitUserInput now payload.response =
        .ok (runId, inner.beginRun now (Server.ThreadInner.responseMessage payload.response) runId) := by
      unfold Server.ThreadInner.submitUserInput
      rw [status]
      exact if_pos names
    obtain ⟨held, run, pending, same, awaiting, admissible⟩ :=
      answers _ (submit_accepted.2 ⟨filled, stored, inner, found, submitted⟩)
    obtain rfl := Option.some.inj (found.symm.trans same)
    rw [status] at awaiting
    cases awaiting
    exact (admissible_payload names).1 admissible
  · intro offered admitted accepted
    obtain ⟨filled, stored, inner, found, submitted⟩ := submit_accepted.1 accepted
    obtain ⟨⟨request, status, names⟩, -⟩ := Server.submitUserInput_ok submitted
    exact ⟨inner, admitted.1, request, found, status,
      (admissible_payload names).2 (offered inner _ request found status names filled stored)⟩

/-- A prompt's reply is answered as it should be if and only if it is plain, and an
endpoint's payload if and only if the client kept to the options. -/
theorem answers_iff (request : UserInputRequest) (raw id : String)
    (thread : Option Server.ThreadInner) (now : UInt64) (failure : Option String)
    (payload : SubmitUserInputRequest) :
    (PromptAnswers request raw ↔ PlainReply request (trimmed raw)) ∧
    (EndpointAnswers id thread now failure payload ↔ OfferedPayload thread failure payload) := by
  refine ⟨⟨fun answers => (followsRule_iff request raw).1 answers.rule, fun plain => ?_⟩,
    endpointAnswers_iff id thread now failure payload⟩
  exact ⟨fun _ _ _ submitted => prompt_admissible submitted, (followsRule_iff request raw).2 plain⟩

/-- Labels that are numbers, in the other order. -/
def swappedLabels : UserInputRequest :=
  { requestId := "req-1", prompt := "Choose", options := ["2", "1"], allowFreeform := false }

/-- A thread that waits for an answer to `swappedLabels`. -/
def waitingThread : Server.ThreadInner :=
  { Server.ThreadInner.new "thread-1" 0 ⟨"/work", "model", .readOnly, []⟩ with
    status := .awaitingUserInput "run-1" swappedLabels }

/-- The reply `2` selects the label `1`, and the endpoint accepts an answer that is
none of the labels. -/
theorem swapped_answers :
    parseUserInputSubmission swappedLabels "2" = .ok ⟨"req-1", "1", some "1"⟩ ∧
    ¬ PromptAnswers swappedLabels "2" ∧
    ¬ EndpointAnswers "thread-1" (some waitingThread) 1 none ⟨"req-1", "neither", some "3"⟩ := by
  have plain : ¬ PlainReply swappedLabels (trimmed "2") := by
    rintro (none_offered | ⟨-, own⟩)
    · cases none_offered
    · have number : parseUsize (trimmed "2") = some 2 := by decide +kernel
      have reply : trimmed "2" = "2" := by decide +kernel
      rw [number, reply] at own
      exact absurd own (by decide)
  refine ⟨by decide +kernel, fun answers => plain ((followsRule_iff _ _).1 answers.rule), ?_⟩
  rw [endpointAnswers_iff]
  intro offered
  have kept := offered waitingThread "run-1" swappedLabels rfl rfl rfl (by decide +kernel) rfl
  exact absurd kept (by decide +kernel)

end Openyak.Cli
