/-
# Server.SettingsLayers -- which layer a merged setting comes from

What stands at a path behind the merge is what stood there, overlaid with what the layer says
of the path (`follow_mergeValue`), so the last layer that says anything of a path decides
(`layered_mergeLayers`).

The permission mode has two paths.  Its reader looks at one of them first, whichever layer it
comes from, so the mode is that of the highest layer that sets one just when that layer's label
is left standing and nothing stands at the other path before it (`layersResolve_iff`).
-/
import Openyak.Theory.Layers
import Openyak.Plugins.EnabledLayers

namespace Openyak.Server

open Openyak.Runtime
open Openyak.Theory
open Openyak.Plugins (get?_deepMerge)

set_option autoImplicit false

/-! ## What a layer says of a path -/

/-- A value that is no object hides what stands below it. -/
def saysAt (value : JsonValue) : List String → Said JsonValue
  | [] => .sets value
  | key :: keys =>
      match asObject value with
      | none => .hides
      | some entries =>
          match entries.get? key with
          | none => .silent
          | some next => saysAt next keys

def layerSays (layer : ConfigObject) (path : List String) : Said JsonValue := saysAt (.object layer) path

/-- The last word of the layers on a path. -/
def lastWord (layers : List ConfigObject) (path : List String) : Said JsonValue :=
  Said.last (layers.map fun layer => layerSays layer path)

def IsObject (value : JsonValue) : Prop := (asObject value).isSome = true

/-- The merged view has at every path what the last layer that says anything of it says: nothing,
a value, or an object for an object, whose inside other paths are about. -/
def Layered (layers : List ConfigObject) (merged : ConfigObject) : Prop :=
  ∀ key keys, Said.Stands IsObject (merged.getPath (key :: keys)) (lastWord layers (key :: keys))

/-- A layer alone would give a permission mode, or fail over its label. -/
def SetsMode (layer : ConfigObject) : Prop := parseOptionalPermissionMode layer ≠ .ok none

structure LayersResolve (layers : List ConfigObject) : Prop where
  view : Layered layers (mergeLayers layers)
  unset : (∀ layer ∈ layers, ¬SetsMode layer) →
    parseOptionalPermissionMode (mergeLayers layers) = .ok none
  mode : ∀ below highest above, layers = below ++ highest :: above → SetsMode highest →
    (∀ layer ∈ above, ¬SetsMode layer) →
    parseOptionalPermissionMode (mergeLayers layers) = parseOptionalPermissionMode highest

/-! ## Merging -/

theorem follow_eq (value : JsonValue) (path : List String) :
    value.follow path = Said.layOver mergeValue none (saysAt value path) := by
  induction path generalizing value with
  | nil =>
      cases value with
      | object entries => simp [JsonTree.follow, saysAt, Said.layOver, mergeValue]
      | _ => simp [JsonTree.follow, saysAt, Said.layOver, mergeValue]
  | cons key keys ih =>
      cases value with
      | object entries =>
          rw [JsonTree.follow, saysAt]
          show ((entries.get? key).bind fun next => next.follow keys) = _
          cases found : entries.get? key with
          | none => simp [asObject, found, Said.layOver]
          | some next => simpa [asObject, found] using ih next
      | _ => rfl

/-- **One layer over what stands**, at every path. -/
theorem follow_mergeValue (held : Option JsonValue) (incoming : JsonValue) (path : List String) :
    (mergeValue held incoming).follow path =
      Said.layOver mergeValue (held.bind fun value => value.follow path) (saysAt incoming path) := by
  induction path generalizing held incoming with
  | nil => cases held <;> rfl
  | cons key keys ih =>
      cases incoming with
      | object entries =>
          cases held with
          | none => exact follow_eq (.object entries) (key :: keys)
          | some value =>
              cases value with
              | object existing =>
                  show ((deepMergeObjects existing entries).get? key).bind (·.follow keys) =
                    Said.layOver mergeValue ((existing.get? key).bind (·.follow keys)) _
                  rw [get?_deepMerge, saysAt]
                  cases found : entries.get? key with
                  | none => simp [asObject, found, Said.layOver]
                  | some next => simpa [asObject, found] using ih (existing.get? key) next
              | _ => exact follow_eq (.object entries) (key :: keys)
      | _ => simp [mergeValue, JsonTree.follow, JsonTree.asObject?, saysAt, asObject, Said.layOver]

theorem getPath_mergeLayers (layers : List ConfigObject) (key : String) (keys : List String) :
    (mergeLayers layers).getPath (key :: keys) =
      (layers.map fun layer => layerSays layer (key :: keys)).foldl (Said.layOver mergeValue) none := by
  induction layers using List.reverseRecOn with
  | nil => rfl
  | append_singleton layers layer ih =>
      rw [List.map_append, List.foldl_append, ← ih, mergeLayers, List.foldl_append, List.foldl_cons,
        List.foldl_nil]
      exact follow_mergeValue (some (.object (mergeLayers layers))) (.object layer) (key :: keys)

/-- **The merged view is that of the last words**. -/
theorem layered_mergeLayers (layers : List ConfigObject) : Layered layers (mergeLayers layers) := by
  intro key keys
  rw [getPath_mergeLayers]
  apply Said.layOver_last
  · intro held value plain
    cases value with
    | object entries => exact absurd rfl plain
    | _ => simp [mergeValue]
  · intro held value object
    cases value with
    | object entries => cases held with
      | none => rfl
      | some value => cases value <;> rfl
    | _ => cases object

/-! ## Labels of a mode -/

def modePath : List String := ["permissionMode"]

def defaultModePath : List String := ["permissions", "defaultMode"]

theorem modePath_ne : modePath ≠ [] := by decide

theorem defaultModePath_ne : defaultModePath ≠ [] := by decide

/-- The string at a path of an object. -/
def stringAt (object : ConfigObject) (path : List String) : Option String :=
  (object.getPath path).bind asStr

def wordString : Said JsonValue → Option String
  | .sets value => asStr value
  | .silent | .hides => none

/-- The string that is left standing at a path. -/
def standing (layers : List ConfigObject) (path : List String) : Option String :=
  wordString (lastWord layers path)

/-- Two labels of one mode. -/
def SameMode (label other : String) : Prop :=
  ∃ mode, parsePermissionModeLabel label "" = .ok mode ∧ parsePermissionModeLabel other "" = .ok mode

/-- The label of the highest layer that has one is the one that is read, or the one that is read
means the same mode. -/
def LabelStands (layers : List ConfigObject) (highest : ConfigObject) (above : List ConfigObject) : Prop :=
  match stringAt highest modePath with
  | some label => (∀ layer ∈ above, layer.get? "permissionMode" = none) ∨
      ∃ other, standing layers defaultModePath = some other ∧ SameMode label other
  | none =>
      match standing layers modePath with
      | some other => ∃ label, stringAt highest defaultModePath = some label ∧ SameMode other label
      | none => ∀ layer ∈ above, layerSays layer defaultModePath = .silent

/-- What the reader makes of the strings at the two paths. -/
def readMode (mode defaultMode : Option String) : Except ConfigError (Option ResolvedPermissionMode) :=
  match mode with
  | some label => (parsePermissionModeLabel label "merged settings.permissionMode").map some
  | none =>
      match defaultMode with
      | some label => (parsePermissionModeLabel label "merged settings.permissions.defaultMode").map some
      | none => .ok none

theorem parseOptionalPermissionMode_eq (object : ConfigObject) :
    parseOptionalPermissionMode object =
      readMode (stringAt object modePath) (stringAt object defaultModePath) := by
  have first : stringAt object modePath = (object.get? "permissionMode").bind asStr := by
    simp [stringAt, modePath, JsonEntries.getPath, JsonTree.follow]
  have second : stringAt object defaultModePath =
      (((object.get? "permissions").bind asObject).bind (·.get? "defaultMode")).bind asStr := by
    cases found : object.get? "permissions" with
    | none => simp [stringAt, defaultModePath, JsonEntries.getPath, found]
    | some value =>
        cases value <;>
          simp [stringAt, defaultModePath, JsonEntries.getPath, JsonTree.follow, JsonTree.asObject?,
            asObject, found]
  unfold parseOptionalPermissionMode readMode
  cases mode : (object.get? "permissionMode").bind asStr with
  | some label => simp only [first, mode]
  | none =>
      cases default_ : (((object.get? "permissions").bind asObject).bind
        (·.get? "defaultMode")).bind asStr with
      | some label => simp only [first, second, mode, default_]
      | none => simp only [first, second, mode, default_]

theorem readMode_none {mode defaultMode : Option String} :
    readMode mode defaultMode = .ok none ↔ mode = none ∧ defaultMode = none := by
  have some_ne (label context : String) : (parsePermissionModeLabel label context).map some ≠ .ok none := by
    cases parsePermissionModeLabel label context <;> nofun
  cases mode with
  | some label => simp [readMode, some_ne]
  | none => cases defaultMode <;> simp [readMode, some_ne]

theorem setsMode_iff {layer : ConfigObject} :
    SetsMode layer ↔ stringAt layer modePath ≠ none ∨ stringAt layer defaultModePath ≠ none := by
  rw [SetsMode, parseOptionalPermissionMode_eq, ne_eq, readMode_none, not_and_or]

/-- A label means the same anywhere. -/
theorem parsePermissionModeLabel_cases (label : String) :
    (∃ mode, ∀ context, parsePermissionModeLabel label context = .ok mode) ∨
      ∀ context, parsePermissionModeLabel label context =
        .error (.parse (context ++ ": unsupported permission mode " ++ label)) := by
  unfold parsePermissionModeLabel
  by_cases readOnly : label = "default" ∨ label = "plan" ∨ label = "read-only"
  · exact .inl ⟨.readOnly, fun _ => if_pos readOnly⟩
  by_cases workspaceWrite : label = "acceptEdits" ∨ label = "auto" ∨ label = "workspace-write"
  · exact .inl ⟨.workspaceWrite, fun _ => by rw [if_neg readOnly, if_pos workspaceWrite]⟩
  by_cases dangerFullAccess : label = "dontAsk" ∨ label = "danger-full-access"
  · exact .inl ⟨.dangerFullAccess, fun _ => by
      rw [if_neg readOnly, if_neg workspaceWrite, if_pos dangerFullAccess]⟩
  · exact .inr fun _ => by rw [if_neg readOnly, if_neg workspaceWrite, if_neg dangerFullAccess]

/-- The two places read alike what means the same; their errors differ. -/
theorem readMode_eq_iff {label other : String} {defaultMode : Option String} :
    readMode (some label) defaultMode = readMode none (some other) ↔ SameMode label other := by
  rw [readMode, readMode, SameMode]
  obtain ⟨mode, reads⟩ | fails := parsePermissionModeLabel_cases label
  · obtain ⟨second, otherReads⟩ | otherFails := parsePermissionModeLabel_cases other
    · simp only [reads, otherReads, Except.map, Except.ok.injEq, Option.some.injEq]
      exact ⟨fun same => ⟨mode, rfl, same.symm⟩, fun ⟨_, left, right⟩ => left.trans right.symm⟩
    · simp [reads, otherFails, Except.map]
  · obtain ⟨second, otherReads⟩ | otherFails := parsePermissionModeLabel_cases other
    · simp [fails, otherReads, Except.map]
    · simp only [fails, otherFails, Except.map, reduceCtorEq, false_and, exists_false, iff_false,
        Except.error.injEq, ConfigError.parse.injEq]
      intro same
      -- The first letter in which the two paths differ.
      have letter := congrArg (fun text : String => text.toList[26]?) same
      simp [String.toList_append] at letter

/-! ## The label that is read -/

theorem wordString_stands {held : Option JsonValue} {word : Said JsonValue}
    (stands : Said.Stands IsObject held word) : held.bind asStr = wordString word := by
  have noString {value : JsonValue} (object : IsObject value) : asStr value = none := by
    cases value with
    | object entries => rfl
    | _ => cases object
  cases word with
  | silent =>
      rw [show held = none from stands]
      rfl
  | hides =>
      rw [show held = none from stands]
      rfl
  | sets value =>
      by_cases object : IsObject value
      · obtain ⟨block, rfl, isBlock⟩ := stands.2 object
        exact (noString isBlock).trans (noString object).symm
      · rw [stands.1 object]
        rfl

/-- The reader finds the string that is left standing. -/
theorem stringAt_mergeLayers (layers : List ConfigObject) {path : List String} (nonempty : path ≠ []) :
    stringAt (mergeLayers layers) path = standing layers path := by
  obtain ⟨key, keys, rfl⟩ := List.exists_cons_of_ne_nil nonempty
  exact wordString_stands (layered_mergeLayers layers key keys)

theorem stringAt_layer (layer : ConfigObject) {path : List String} (nonempty : path ≠ []) :
    stringAt layer path = wordString (layerSays layer path) := by
  obtain ⟨key, keys, rfl⟩ := List.exists_cons_of_ne_nil nonempty
  have found : layer.getPath (key :: keys) =
      Said.layOver mergeValue none (layerSays layer (key :: keys)) := follow_eq (.object layer) (key :: keys)
  rw [stringAt, found]
  cases layerSays layer (key :: keys) with
  | silent => rfl
  | hides => rfl
  | sets value => cases value <;> simp [Said.layOver, mergeValue, wordString, asStr]

theorem layerSays_mode {layer : ConfigObject} :
    layerSays layer modePath = .silent ↔ layer.get? "permissionMode" = none := by
  rw [layerSays, modePath, saysAt]
  cases found : layer.get? "permissionMode" with
  | none => simp [asObject, found]
  | some value => simp [asObject, found, saysAt]

section Standing

variable {below above : List ConfigObject} {highest : ConfigObject} {path : List String}

theorem lastWord_silent {layers : List ConfigObject} :
    lastWord layers path = .silent ↔ ∀ layer ∈ layers, layerSays layer path = .silent := by
  rw [lastWord, Said.last_silent_iff, List.forall_mem_map]

/-- Under layers that say nothing of the path a label is left standing. -/
theorem standing_of_silent (nonempty : path ≠ []) (silent : ∀ layer ∈ above, layerSays layer path = .silent)
    {label : String} (here : stringAt highest path = some label) :
    standing (below ++ highest :: above) path = some label := by
  have speaks : layerSays highest path ≠ .silent := by
    intro nothing
    rw [stringAt_layer highest nonempty, nothing] at here
    cases here
  have own : Said.last ((highest :: above).map fun layer => layerSays layer path) =
      layerSays highest path := Said.last_cons_of_silent (lastWord_silent.2 silent)
  rw [standing, lastWord, List.map_append, Said.last_append_of_ne (by rw [own]; exact speaks), own,
    ← stringAt_layer highest nonempty, here]

/-- Under a layer that says something else of it nothing is. -/
theorem standing_of_loud (nonempty : path ≠ [])
    (loud : ¬∀ layer ∈ above, layerSays layer path = .silent)
    (none_ : ∀ layer ∈ above, stringAt layer path = none) :
    standing (below ++ highest :: above) path = none := by
  have speaks : lastWord above path ≠ .silent := fun nothing => loud (lastWord_silent.1 nothing)
  have own : Said.last ((highest :: above).map fun layer => layerSays layer path) =
      lastWord above path := Said.last_cons_of_ne speaks
  obtain ⟨layer, member, said⟩ := List.mem_map.1 (Said.last_mem speaks)
  have word : lastWord above path = layerSays layer path := said.symm
  rw [standing, lastWord, List.map_append, Said.last_append_of_ne (by rw [own]; exact speaks), own,
    word, ← stringAt_layer layer nonempty, none_ layer member]

theorem parseOptionalPermissionMode_merged (layers : List ConfigObject) :
    parseOptionalPermissionMode (mergeLayers layers) =
      readMode (standing layers modePath) (standing layers defaultModePath) := by
  rw [parseOptionalPermissionMode_eq, stringAt_mergeLayers layers modePath_ne,
    stringAt_mergeLayers layers defaultModePath_ne]

/-- **The mode of the highest layer that sets one** is read just when its label stands. -/
theorem mode_highest_iff (sets : SetsMode highest) (others : ∀ layer ∈ above, ¬SetsMode layer) :
    parseOptionalPermissionMode (mergeLayers (below ++ highest :: above)) =
        parseOptionalPermissionMode highest ↔
      LabelStands (below ++ highest :: above) highest above := by
  have noMode : ∀ layer ∈ above, stringAt layer modePath = none := by
    intro layer member
    by_contra here
    exact others layer member (setsMode_iff.2 (.inl here))
  have noDefault : ∀ layer ∈ above, stringAt layer defaultModePath = none := by
    intro layer member
    by_contra here
    exact others layer member (setsMode_iff.2 (.inr here))
  have reads : parseOptionalPermissionMode highest ≠ .ok none := sets
  rw [parseOptionalPermissionMode_eq] at reads
  rw [parseOptionalPermissionMode_merged, parseOptionalPermissionMode_eq, LabelStands]
  cases own : stringAt highest modePath with
  | some label =>
      dsimp only
      simp only [← layerSays_mode]
      by_cases silent : ∀ layer ∈ above, layerSays layer modePath = .silent
      · rw [standing_of_silent modePath_ne silent own]
        exact ⟨fun _ => .inl silent, fun _ => rfl⟩
      · rw [standing_of_loud modePath_ne silent noMode]
        rw [own] at reads
        cases standing (below ++ highest :: above) defaultModePath with
        | none =>
            constructor
            · intro same
              exact absurd same.symm reads
            · rintro (quiet | ⟨other, found, -⟩)
              · exact absurd quiet silent
              · cases found
        | some other =>
            rw [eq_comm, readMode_eq_iff]
            constructor
            · intro same
              exact .inr ⟨other, rfl, same⟩
            · rintro (quiet | ⟨found, isOther, same⟩)
              · exact absurd quiet silent
              · rw [Option.some.inj isOther]
                exact same
  | none =>
      obtain ⟨label, default⟩ : ∃ label, stringAt highest defaultModePath = some label := by
        apply Option.ne_none_iff_exists'.1
        exact (setsMode_iff.1 sets).resolve_left fun here => here own
      rw [own, default] at reads
      rw [default]
      dsimp only
      cases standing (below ++ highest :: above) modePath with
      | some other =>
          rw [readMode_eq_iff]
          constructor
          · intro same
            exact ⟨label, rfl, same⟩
          · rintro ⟨found, isLabel, same⟩
            rw [Option.some.inj isLabel]
            exact same
      | none =>
          by_cases silent : ∀ layer ∈ above, layerSays layer defaultModePath = .silent
          · rw [standing_of_silent defaultModePath_ne silent default]
            exact ⟨fun _ => silent, fun _ => rfl⟩
          · rw [standing_of_loud defaultModePath_ne silent noDefault]
            exact ⟨fun same => absurd same.symm reads, fun quiet => absurd quiet silent⟩

end Standing

/-- Where no layer sets a mode none is read. -/
theorem mode_unset {layers : List ConfigObject} (unset : ∀ layer ∈ layers, ¬SetsMode layer) :
    parseOptionalPermissionMode (mergeLayers layers) = .ok none := by
  have stands {path : List String} (nonempty : path ≠ [])
      (none_ : ∀ layer ∈ layers, stringAt layer path = none) : standing layers path = none := by
    by_cases silent : lastWord layers path = .silent
    · rw [standing, silent, wordString]
    · obtain ⟨layer, member, said⟩ := List.mem_map.1 (Said.last_mem silent)
      have word : lastWord layers path = layerSays layer path := said.symm
      rw [standing, word, ← stringAt_layer layer nonempty, none_ layer member]
  rw [parseOptionalPermissionMode_merged, readMode_none]
  constructor
  · refine stands modePath_ne fun layer member => ?_
    by_contra here
    exact unset layer member (setsMode_iff.2 (.inl here))
  · refine stands defaultModePath_ne fun layer member => ?_
    by_contra here
    exact unset layer member (setsMode_iff.2 (.inr here))

/-- **Layers resolve by precedence** at every path, and as to the permission mode just when the
label of the highest layer that has one stands. -/
theorem layersResolve_iff (layers : List ConfigObject) :
    LayersResolve layers ↔ ∀ below highest above, layers = below ++ highest :: above →
      SetsMode highest → (∀ layer ∈ above, ¬SetsMode layer) → LabelStands layers highest above := by
  constructor
  · rintro resolve below highest above rfl sets others
    exact (mode_highest_iff sets others).1 (resolve.mode below highest above rfl sets others)
  · intro stands
    refine ⟨layered_mergeLayers layers, mode_unset, ?_⟩
    rintro below highest above rfl sets others
    exact (mode_highest_iff sets others).2 (stands below highest above rfl sets others)

/-- Shared settings that let everything be done. -/
def sharedLayer : ConfigObject :=
  .cons "permissionMode" trivial (.string "danger-full-access") .nil

/-- Local settings that take it back. -/
def localLayer : ConfigObject :=
  .cons "permissions" trivial
    (.object (.cons "defaultMode" trivial (.string "plan") .nil)) .nil

/-- **The lower layer's mode is read**: the higher layer spells its own the other way. -/
theorem layers_not_resolved :
    parseOptionalPermissionMode localLayer = .ok (some .readOnly) ∧
    parseOptionalPermissionMode (mergeLayers [sharedLayer, localLayer]) =
      .ok (some .dangerFullAccess) ∧
    ¬LayersResolve [sharedLayer, localLayer] := by
  have highest : parseOptionalPermissionMode localLayer = .ok (some .readOnly) := by decide +kernel
  have merged : parseOptionalPermissionMode (mergeLayers [sharedLayer, localLayer]) =
      .ok (some .dangerFullAccess) := by decide +kernel
  refine ⟨highest, merged, fun resolve => ?_⟩
  have same := resolve.mode [sharedLayer] localLayer [] rfl (by rw [SetsMode, highest]; nofun) nofun
  rw [highest, merged] at same
  cases same

end Openyak.Server
