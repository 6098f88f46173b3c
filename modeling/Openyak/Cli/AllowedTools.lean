/-
# Cli.AllowedTools -- which allow-lists name the tools they resolve to

An allow-list is looked up by folded names, without case and with `_` for `-`.  Registering
compares the names as they are, so two tools may fold alike; the one registered last then
answers for both, and the short aliases answer before any tool.

A list of names is resolved exactly when each of them stands for itself (`allowed_exactly_iff`).
-/
import Openyak.Cli.ExecutionPolicy
import Openyak.Theory.Lines

namespace Openyak.Tools.GlobalToolRegistry

open Openyak.Theory
open Openyak.Theory.Text (isWhitespace trim toAsciiLowercase)
open Openyak.Server (nameSet)

set_option autoImplicit false

/-! ## Plain names -/

/-- A name without commas and white space. -/
def Unseparated (name : String) : Prop := ∀ c ∈ name.toList, (c = ',' || isWhitespace c) = false

theorem tokens_unseparated {name : String} (unseparated : Unseparated name) :
    tokens name = if name = "" then [] else [name.toList] := by
  rw [tokens, List.splitOnP_eq_singleton unseparated]
  by_cases empty : name = "" <;> simp [empty]

theorem normalizeToolName_ne_nil {name : String} (unseparated : Unseparated name)
    (solid : name ≠ "") : normalizeToolName name.toList ≠ [] := by
  intro empty
  obtain ⟨c, member⟩ := List.exists_mem_of_ne_nil name.toList (by simpa using solid)
  have blank : trim name.toList = [] := by simpa [normalizeToolName, toAsciiLowercase] using empty
  have white := Text.trimEnd_eq_nil.mp (Text.trim_eq_nil.mp blank) c member
  rw [(Bool.or_eq_false_iff.mp (unseparated c member)).2] at white
  cases white

theorem flatMap_tokens {values : List String} (unseparated : ∀ value ∈ values, Unseparated value) :
    values.flatMap tokens = (values.filter (· ≠ "")).map String.toList := by
  induction values with
  | nil => rfl
  | cons value values induction =>
      rw [List.forall_mem_cons] at unseparated
      rw [List.flatMap_cons, tokens_unseparated unseparated.1, induction unseparated.2]
      by_cases empty : value = "" <;> simp [empty]

/-! ## What a name resolves to -/

variable {registry : GlobalToolRegistry}

/-- While browser control is off, its tools' names are refused, whatever they stand for. -/
def Enabled (registry : GlobalToolRegistry) (normalized : List Char) : Prop :=
  registry.browserEnabled = false →
    normalized ≠ normalizeToolName browserObserveToolName.toList ∧
      normalized ≠ normalizeToolName browserInteractToolName.toList

/-- The name is registered, and no name registered behind it folds alike. -/
def Latest (registry : GlobalToolRegistry) (name : String) : Prop :=
  ∃ front back, registry.canonicalNames = front ++ name :: back ∧
    ∀ other ∈ back, normalizeToolName other.toList ≠ normalizeToolName name.toList

def Unaliased (normalized : List Char) : Prop :=
  ∀ entry ∈ toolAliases, entry.1.toList ≠ normalized

theorem allowedToken_ok_iff {token : List Char} {canonical : String} :
    registry.allowedToken token = .ok canonical ↔
      registry.Enabled (normalizeToolName token) ∧
        registry.resolveToolName (normalizeToolName token) = some canonical := by
  unfold allowedToken Enabled
  generalize normalizeToolName token = normalized
  generalize normalizeToolName browserObserveToolName.toList = observe
  generalize normalizeToolName browserInteractToolName.toList = interact
  grind

theorem resolveToolName_eq (normalized : List Char) :
    registry.resolveToolName normalized =
      ((toolAliases.reverse.find? fun entry => entry.1.toList == normalized).map Prod.snd).or
        (registry.canonicalNames.reverse.find? fun name =>
          normalizeToolName name.toList == normalized) := by
  unfold resolveToolName
  dsimp only
  rw [List.reverse_append, List.find?_append, ← List.map_reverse, ← List.map_reverse,
    List.find?_map, List.find?_map]
  simp only [Function.comp_def]
  cases toolAliases.reverse.find? (fun entry => entry.1.toList == normalized) with
  | some entry => rfl
  | none =>
      cases registry.canonicalNames.reverse.find? fun name =>
        normalizeToolName name.toList == normalized <;> rfl

/-- An alias, or else the last name that folds so. -/
theorem resolveToolName_some {normalized : List Char} {canonical : String}
    (found : registry.resolveToolName normalized = some canonical) :
    (∃ entry ∈ toolAliases, entry.1.toList = normalized ∧ entry.2 = canonical) ∨
      Unaliased normalized ∧ normalizeToolName canonical.toList = normalized ∧
        registry.Latest canonical := by
  rw [resolveToolName_eq] at found
  cases aliased : toolAliases.reverse.find? fun entry => entry.1.toList == normalized with
  | some entry =>
      rw [aliased] at found
      exact .inl ⟨entry, List.mem_reverse.mp (List.mem_of_find?_eq_some aliased),
        by simpa using List.find?_some aliased, Option.some.inj found⟩
  | none =>
      rw [aliased, Option.map_none, Option.none_or, List.find?_eq_some_iff_append] at found
      obtain ⟨same, back, front, parts, others⟩ := found
      obtain rfl : normalizeToolName canonical.toList = normalized := by simpa using same
      refine .inr ⟨fun entry member => ?_, rfl, front.reverse, back.reverse, ?_, fun other member => ?_⟩
      · simpa using List.find?_eq_none.mp aliased entry (List.mem_reverse.mpr member)
      · rw [← List.reverse_reverse registry.canonicalNames, parts]
        simp
      · simpa using others other (List.mem_reverse.mp member)

theorem resolveToolName_latest {name : String} (unaliased : Unaliased (normalizeToolName name.toList))
    (latest : registry.Latest name) :
    registry.resolveToolName (normalizeToolName name.toList) = some name := by
  obtain ⟨front, back, parts, others⟩ := latest
  have noAlias : (toolAliases.reverse.find? fun entry =>
      entry.1.toList == normalizeToolName name.toList) = none := by
    rw [List.find?_eq_none]
    intro entry member
    simpa using unaliased entry (List.mem_reverse.mp member)
  rw [resolveToolName_eq, noAlias, Option.map_none, Option.none_or, parts,
    List.find?_eq_some_iff_append]
  refine ⟨by simp, back.reverse, front.reverse, by simp, fun other member => ?_⟩
  simpa using others other (List.mem_reverse.mp member)

example : builtin.resolveToolName (normalizeToolName "Read-File".toList) = some "read_file" := by
  decide +kernel

/-! ## A list of names -/

/-- No alias and no other tool stands for the name. -/
structure StandsForItself (registry : GlobalToolRegistry) (name : String) : Prop where
  named : name ≠ ""
  enabled : registry.Enabled (normalizeToolName name.toList)
  unaliased : Unaliased (normalizeToolName name.toList)
  latest : registry.Latest name

/-- The names are resolved to their own set, where no names are no list; so the result is
resolved to itself, and holds no other name. -/
structure ResolvedExactly (registry : GlobalToolRegistry) (values : List String) : Prop where
  exact : registry.normalizeAllowedTools values =
    .ok (if values = [] then none else some (nameSet values))
  stable : ∀ allowed, registry.normalizeAllowedTools values = .ok (some allowed) →
    registry.normalizeAllowedTools allowed = .ok (some allowed)
  named : ∀ allowed, registry.normalizeAllowedTools values = .ok (some allowed) →
    ∀ tool ∈ allowed, tool ∈ values

theorem mapM_own {names : List String} {call : List Char → Except String String}
    (own : ∀ name ∈ names, call name.toList = .ok name) :
    (names.map String.toList).mapM call = .ok names := by
  induction names with
  | nil => rfl
  | cons name names induction =>
      rw [List.forall_mem_cons] at own
      rw [List.map_cons, List.mapM_cons, own.1, ok_bind, induction own.2]
      rfl

theorem mapM_reached {α β ε : Type} {call : α → Except ε β} {items : List α} {results : List β}
    (done : items.mapM call = .ok results) : ∀ result ∈ results, ∃ item ∈ items, call item = .ok result := by
  induction items generalizing results with
  | nil =>
      obtain rfl : [] = results := Except.ok.inj done
      exact List.forall_mem_nil _
  | cons item items induction =>
      rw [List.mapM_cons] at done
      obtain ⟨first, called, more⟩ := bind_eq_ok.mp done
      obtain ⟨others, later, last⟩ := bind_eq_ok.mp more
      obtain rfl : first :: others = results := Except.ok.inj last
      rw [List.forall_mem_cons]
      refine ⟨⟨item, List.mem_cons_self, called⟩, fun result member => ?_⟩
      obtain ⟨other, isItem, reaches⟩ := induction later result member
      exact ⟨other, List.mem_cons_of_mem _ isItem, reaches⟩

theorem exact_of_standing {values : List String} (unseparated : ∀ value ∈ values, Unseparated value)
    (own : ∀ value ∈ values, registry.StandsForItself value) :
    registry.normalizeAllowedTools values =
      .ok (if values = [] then none else some (nameSet values)) := by
  have named : values.filter (· ≠ "") = values := by
    rw [List.filter_eq_self]
    intro value member
    simpa using (own value member).named
  have resolved : (values.map String.toList).mapM registry.allowedToken = .ok values :=
    mapM_own fun value member => allowedToken_ok_iff.mpr ⟨(own value member).enabled,
      resolveToolName_latest (own value member).unaliased (own value member).latest⟩
  unfold normalizeAllowedTools
  split
  · rfl
  · rw [flatMap_tokens unseparated, named, resolved, ok_bind]
    rfl

/-- Every name is what one of the names resolves to. -/
theorem reached_of_exact {values : List String} (unseparated : ∀ value ∈ values, Unseparated value)
    (exact : registry.normalizeAllowedTools values =
      .ok (if values = [] then none else some (nameSet values))) :
    ∀ name ∈ values, ∃ token ∈ values, token ≠ "" ∧
      registry.allowedToken token.toList = .ok name := by
  intro name isName
  have some : values ≠ [] := List.ne_nil_of_mem isName
  rw [normalizeAllowedTools, if_neg some, if_neg some, flatMap_tokens unseparated] at exact
  obtain ⟨allowed, resolved, last⟩ := bind_eq_ok.mp exact
  have isNames : nameSet allowed = nameSet values := Option.some.inj (Except.ok.inj last)
  have isAllowed : name ∈ allowed := by
    rw [← Cli.mem_nameSet, isNames, Cli.mem_nameSet]
    exact isName
  obtain ⟨token, member, reaches⟩ := mapM_reached resolved name isAllowed
  obtain ⟨value, isValue, rfl⟩ := List.mem_map.mp member
  rw [List.mem_filter, decide_eq_true_eq] at isValue
  exact ⟨value, isValue.1, isValue.2, reaches⟩

theorem standing_of_exact {values : List String} (unseparated : ∀ value ∈ values, Unseparated value)
    (exact : registry.normalizeAllowedTools values =
      .ok (if values = [] then none else some (nameSet values))) :
    ∀ name ∈ values, registry.StandsForItself name := by
  have reached := reached_of_exact unseparated exact
  -- What an alias stands for folds to no alias, so a name that does is never reached.
  have targets : ∀ entry ∈ toolAliases, Unaliased (normalizeToolName entry.2.toList) := by
    unfold Unaliased
    decide
  have unaliased : ∀ name ∈ values, Unaliased (normalizeToolName name.toList) := by
    intro name isName
    obtain ⟨token, -, -, resolves⟩ := reached name isName
    rcases resolveToolName_some (allowedToken_ok_iff.mp resolves).2 with
      ⟨entry, isAlias, -, rfl⟩ | ⟨noAlias, same, -⟩
    · exact targets entry isAlias
    · rw [same]
      exact noAlias
  intro name isName
  obtain ⟨token, isToken, solid, resolves⟩ := reached name isName
  obtain ⟨enabled, found⟩ := allowedToken_ok_iff.mp resolves
  rcases resolveToolName_some found with ⟨entry, isAlias, isKey, -⟩ | ⟨-, same, latest⟩
  · exact absurd isKey (unaliased token isToken entry isAlias)
  · rw [← same] at enabled
    refine ⟨?_, enabled, unaliased name isName, latest⟩
    rintro rfl
    exact normalizeToolName_ne_nil (unseparated token isToken) solid same.symm

variable (registry)

/-- **A list of names is resolved exactly just when each stands for itself.** -/
theorem allowed_exactly_iff (values : List String)
    (unseparated : ∀ value ∈ values, Unseparated value) :
    registry.ResolvedExactly values ↔ ∀ name ∈ values, registry.StandsForItself name := by
  constructor
  · intro resolved
    exact standing_of_exact unseparated resolved.exact
  · intro own
    have exact := exact_of_standing unseparated own
    have isSet (allowed : List String)
        (resolved : registry.normalizeAllowedTools values = .ok (some allowed)) :
        nameSet values = allowed := by
      rw [exact] at resolved
      split at resolved
      · cases resolved
      · exact Option.some.inj (Except.ok.inj resolved)
    refine ⟨exact, fun allowed resolved => ?_, fun allowed resolved tool member => ?_⟩
    · obtain rfl := isSet allowed resolved
      have same : ∀ name ∈ nameSet values, name ∈ values := fun name => Cli.mem_nameSet.mp
      have listed : nameSet values ≠ [] := by
        intro empty
        rw [exact, empty] at resolved
        split at resolved
        · cases resolved
        · rename_i given
          obtain ⟨name, member⟩ := List.exists_mem_of_ne_nil _ given
          rw [← Cli.mem_nameSet, empty] at member
          cases member
      rw [exact_of_standing (fun name member => unseparated name (same name member))
        fun name member => own name (same name member), if_neg listed,
        Server.nameSet_of_increasing (Server.nameSet_increasing values)]
    · rw [← isSet allowed resolved] at member
      exact Cli.mem_nameSet.mp member

theorem unseparated_bash : ∀ value ∈ ["bash"], Unseparated value := by
  simp [Unseparated, isWhitespace]

/-- Without plugins `bash` is bash. -/
theorem allowed_exactly_iff_builtin :
    builtin.ResolvedExactly ["bash"] ↔ ∀ name ∈ ["bash"], builtin.StandsForItself name :=
  allowed_exactly_iff builtin ["bash"] unseparated_bash

def shouting : GlobalToolRegistry where
  pluginTools := [⟨"BASH", .dangerFullAccess⟩]
  unreserved := by decide
  unreservedOptional := fun enabled => absurd enabled Bool.false_ne_true

/-- **A plugin takes a built-in tool's place**: it is accepted, and the name of the one allows
the other. -/
theorem bash_taken_over :
    withPluginTools [⟨"BASH", .dangerFullAccess⟩] = .ok shouting ∧
      "bash" ∈ shouting.canonicalNames ∧
      shouting.normalizeAllowedTools ["bash"] = .ok (some ["BASH"]) ∧
      ¬shouting.ResolvedExactly ["bash"] := by
  have checked : checkPluginNames [] [⟨"BASH", .dangerFullAccess⟩] = .ok () := by decide
  have accepted : withPluginTools [⟨"BASH", .dangerFullAccess⟩] = .ok shouting := by
    unfold withPluginTools
    split
    · rename_i refused
      rw [checked] at refused
      cases refused
    · rfl
  have folds : normalizeToolName "bash".toList = normalizeToolName "BASH".toList := by decide
  have latest : shouting.Latest "BASH" :=
    ⟨mvpToolSpecs.map ToolSpec.name ++ [], [], rfl, fun _ member => absurd member List.not_mem_nil⟩
  have unaliased : Unaliased (normalizeToolName "BASH".toList) := by
    unfold Unaliased
    decide
  have allowed : shouting.allowedToken "bash".toList = .ok "BASH" := by
    rw [allowedToken_ok_iff, folds]
    exact ⟨fun _ => by decide, resolveToolName_latest unaliased latest⟩
  have list : shouting.normalizeAllowedTools ["bash"] = .ok (some ["BASH"]) := by
    rw [normalizeAllowedTools, if_neg (List.cons_ne_nil _ _), flatMap_tokens unseparated_bash]
    show ["bash".toList].mapM shouting.allowedToken >>= _ = _
    rw [List.mapM_cons, allowed, ok_bind, List.mapM_nil, pure_bind, pure_bind]
    exact congrArg (fun names => Except.ok (some names))
      (Server.nameSet_of_increasing (List.pairwise_singleton _ _))
  refine ⟨accepted, ?_, list, fun resolved => ?_⟩
  · exact List.mem_append_left _ (List.mem_append_left _ List.mem_cons_self)
  · have named := resolved.named _ list "BASH" List.mem_cons_self
    simp at named

end Openyak.Tools.GlobalToolRegistry
