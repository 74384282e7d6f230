import CodebaseGraph.Setup.AgentHooks
import CodebaseGraph.Transition.Fallible

/-! Merging the hooks into a configuration keeps every foreign handler in its place, and removing
them leaves nothing but these.
-/

namespace CodebaseGraph.Setup

open CodebaseGraph.Collections CodebaseGraph.Syntax CodebaseGraph.Transition

-- Configurations

/-- A handler that is no group. -/
def IsLeaf (entry : Value) : Prop := entry.items? "hooks" = none

def IsGroup (entry : Value) : Prop :=
  ∃ handlers,
    entry.items? "hooks" = some handlers ∧ handlers ≠ [] ∧ ∀ handler ∈ handlers, IsLeaf handler

def HasEntryShape (client : AgentHookClient) (entry : Value) : Prop :=
  if client = .githubCopilot then IsLeaf entry else IsGroup entry

def HasEventShape (client : AgentHookClient) (event : Value) : Prop :=
  ∃ entries, event = .array entries ∧ ∀ entry ∈ entries, HasEntryShape client entry

def eventOf (root : Value) (name : String) : Option Value :=
  (root.get? "hooks").bind (fun hooks => hooks.get? name)

/-- An object with the client's event lists, as far as it has them. -/
structure HookShape (client : AgentHookClient) (root : Value) : Prop where
  object : root.isObject = true
  hooks
    : ∀ hooks,
        root.get? "hooks" = some hooks
        → ∃ entries,
            hooks = .object entries
            ∧ entries.Pairwise (fun first second => first.1 < second.1)
  events
    : ∀ name ∈ eventNames client, ∀ event, eventOf root name = some event
      → HasEventShape client event

/-- No group of the event is a managed command itself. -/
def PlainGroups (event : Value) : Prop :=
  ∀ entries,
    event = .array entries
    → ∀ entry ∈ entries, (entry.items? "hooks").isSome = true → managedCommand entry = false

-- Handlers

/-- A group without its handlers, and these; a leaf is in no group. -/
def groupOf (entry : Value) : Value × List Value :=
  match entry.items? "hooks" with
  | some handlers => (entry.modify "hooks" (fun _ => .null), handlers)
  | none => (.null, [entry])

def handlerGroups (event : Value) : List (Value × List Value) :=
  (event.asArray.getD []).map groupOf

/-- The group of an entry with its foreign handlers, if it has any. -/
def foreignGroup (entry : Value) : Option (Value × List Value) :=
  let group := groupOf entry
  if (retainForeign group.2).isEmpty then none else some (group.1, retainForeign group.2)

/-- The foreign handlers of an event, each in its group. -/
def foreignGroups (event : Value) : List (Value × List Value) :=
  (event.asArray.getD []).filterMap foreignGroup

/-- What merging and removing are to do, for one configuration. -/
def MergesHooks (client : AgentHookClient) (root : Value) (configPath serverCommand : String)
    : Prop :=
  ∃ merged,
    mergeHooks client root configPath serverCommand = .ok (merged, true)
    ∧ mergeHooks client merged configPath serverCommand = .ok (merged, true)
    ∧ (∀ name ∈ eventNames client,
        ∃ event,
          eventOf merged name = some event
          ∧ countManagedHandlers event = 1
          ∧ foreignGroups event = foreignGroups ((eventOf root name).getD (.array [])))
    ∧ (∀ key,
        key ≠ "hooks"
        → merged.get? key = root.get? key
          ∨ (client = .githubCopilot ∧ key = "version" ∧ root.get? key = none))
    ∧ (∀ name, name ∉ eventNames client → eventOf merged name = eventOf root name)
    ∧ ∀ name,
        HasEventShape client ((eventOf root name).getD (.array []))
        → handlerGroups ((eventOf (removeHooks merged).1 name).getD (.array []))
          = foreignGroups ((eventOf root name).getD (.array []))

-----------------------------------------------------------------------------------------
-- Stripping one entry
-----------------------------------------------------------------------------------------

/-- A leaf, or a group of leaves that is no managed command itself. -/
def IsStrippable (entry : Value) : Prop :=
  IsLeaf entry
  ∨ ∃ handlers,
      entry.items? "hooks" = some handlers
      ∧ (∀ handler ∈ handlers, IsLeaf handler)
      ∧ managedCommand entry = false

theorem isStrippable_of_shape {client : AgentHookClient} {entry : Value}
    (shape : HasEntryShape client entry)
    (plain : (entry.items? "hooks").isSome = true → managedCommand entry = false)
    : IsStrippable entry := by
  unfold HasEntryShape at shape
  split at shape
  · exact Or.inl shape
  · obtain ⟨handlers, held, -, leaves⟩ := shape
    exact Or.inr ⟨handlers, held, leaves, plain (by rw [held]; rfl)⟩

/-- What becomes of an entry when the managed handlers go. -/
def stripEntry (entry : Value) : Option Value :=
  if managedCommand entry then none
  else
    let stripped := (removeManagedFromEvent entry).1
    if (stripped.items? "hooks").all (fun children => !children.isEmpty) then some stripped
    else none

theorem stripEntries_eq (entries : List Value)
    : stripEntries entries = entries.filterMap stripEntry := by
  induction entries with
  | nil => rfl
  | cons entry rest ih =>
      rw [List.filterMap_cons, ← ih]
      simp only [stripEntries, retainForeign, retainFilled, stripEntry]
      by_cases managed : managedCommand entry = true
      · simp [managed]
      · by_cases filled
            : ((removeManagedFromEvent entry).1.items? "hooks").all
                (fun children => !children.isEmpty)
              = true
        · simp [managed, filled]
        · simp [managed, filled]

theorem namesManagedId_modify (entry : Value) (change : Value → Value) {key : String}
    (other : key ≠ "hooks")
    : namesManagedId (entry.modify "hooks" change) key = namesManagedId entry key := by
  rw [namesManagedId, Value.get?_modify, if_neg other, namesManagedId]

/-- The handlers of an entry do not decide whether it is managed itself. -/
theorem managedCommand_modify (entry : Value) (change : Value → Value)
    : managedCommand (entry.modify "hooks" change) = managedCommand entry := by
  rw [managedCommand, namesManagedId_modify _ _ (by decide), namesManagedId_modify _ _ (by decide),
    namesManagedId_modify _ _ (by decide), Value.items?, Value.get?_modify, if_neg (by decide),
    managedCommand, Value.items?]

theorem items?_modify {entry : Value} {handlers : List Value}
    (held : entry.items? "hooks" = some handlers) (new : List Value)
    : (entry.modify "hooks" (fun _ => .array new)).items? "hooks" = some new := by
  obtain ⟨field, found, -⟩ := Option.bind_eq_some_iff.mp held
  rw [Value.items?, Value.get?_modify, if_pos rfl, found]
  rfl

theorem stripEntry_leaf {entry : Value} (leaf : IsLeaf entry)
    : stripEntry entry = if managedCommand entry then none else some entry := by
  have none : entry.items? "hooks" = none := leaf
  simp [stripEntry, removeManagedFromEvent, none]

theorem stripEntry_group {entry : Value} {handlers : List Value}
    (held : entry.items? "hooks" = some handlers) (leaves : ∀ handler ∈ handlers, IsLeaf handler)
    (plain : managedCommand entry = false)
    : stripEntry entry
      = if (retainForeign handlers).isEmpty then none
        else some (entry.modify "hooks" (fun _ => .array (retainForeign handlers))) := by
  have kept : ∀ handler ∈ retainForeign handlers, handler.items? "hooks" = none :=
    fun handler inside => leaves handler (List.mem_filter.mp inside).1
  have stripped : (retainForeign handlers).map stripNested = retainForeign handlers := by
    refine (List.map_congr_left fun handler inside => ?_).trans (List.map_id _)
    rw [stripNested, kept handler inside]
    rfl
  have filled : retainFilled (retainForeign handlers) = retainForeign handlers := by
    refine List.filter_eq_self.mpr fun handler inside => ?_
    rw [kept handler inside]
    rfl
  simp only [stripEntry, plain, removeManagedFromEvent, held, stripped, filled,
    items?_modify held, Bool.false_eq_true, if_false, Option.all_some]
  cases (retainForeign handlers).isEmpty <;> rfl

theorem retainForeign_retainForeign (entries : List Value)
    : retainForeign (retainForeign entries) = retainForeign entries := by
  simp [retainForeign, List.filter_filter]

/-- What is left of an entry are the foreign handlers of its group. -/
theorem groupOf_stripEntry {entry : Value} (strippable : IsStrippable entry)
    : (stripEntry entry).map groupOf = foreignGroup entry := by
  rcases strippable with leaf | ⟨handlers, held, leaves, plain⟩
  · have none : entry.items? "hooks" = none := leaf
    rw [stripEntry_leaf leaf, foreignGroup, groupOf, none]
    cases managed : managedCommand entry with
    | true => simp [retainForeign, managed]
    | false => simp [retainForeign, managed, groupOf, none]
  · rw [stripEntry_group held leaves plain, foreignGroup, groupOf, held]
    dsimp only
    split
    · rfl
    · rw [Option.map_some, groupOf, items?_modify held, Value.modify_modify]

/-- Nothing is left to strip. -/
theorem stripEntry_stripEntry {entry stripped : Value} (strippable : IsStrippable entry)
    (left : stripEntry entry = some stripped)
    : stripEntry stripped = some stripped
      ∧ managedCommand stripped = false
      ∧ ((stripped.items? "hooks").getD []).countP managedCommand = 0 := by
  rcases strippable with leaf | ⟨handlers, held, leaves, plain⟩
  · have none : entry.items? "hooks" = none := leaf
    have same := stripEntry_leaf leaf
    rw [left] at same
    split at same
    · cases same
    · next foreign =>
        obtain rfl := Option.some.inj same
        exact ⟨left, by simpa using foreign, by simp [none]⟩
  · have same := stripEntry_group held leaves plain
    rw [left] at same
    split at same
    · cases same
    · next filled =>
        obtain rfl := Option.some.inj same
        have again := items?_modify held (retainForeign handlers)
        have plain' : managedCommand (entry.modify "hooks" fun _ => .array (retainForeign handlers))
            = false := (managedCommand_modify _ _).trans plain
        refine ⟨?_, plain', ?_⟩
        · rw [stripEntry_group again
            (fun handler inside => leaves handler (List.mem_filter.mp inside).1) plain',
            retainForeign_retainForeign, if_neg filled, Value.modify_modify]
        · rw [again, Option.getD_some, List.countP_eq_zero]
          intro handler inside
          simpa using (List.mem_filter.mp inside).2

-- Stripping an event

theorem stripEntries_append (first second : List Value)
    : stripEntries (first ++ second) = stripEntries first ++ stripEntries second := by
  simp only [stripEntries_eq, List.filterMap_append]

theorem stripEntries_stripEntries {entries : List Value}
    (strippable : ∀ entry ∈ entries, IsStrippable entry)
    : stripEntries (stripEntries entries) = stripEntries entries := by
  simp only [stripEntries_eq]
  induction entries with
  | nil => rfl
  | cons entry rest ih =>
      obtain ⟨here, later⟩ := List.forall_mem_cons.mp strippable
      rw [List.filterMap_cons]
      cases left : stripEntry entry with
      | none => exact ih later
      | some stripped =>
          simp only [List.filterMap_cons, (stripEntry_stripEntry here left).1, ih later]

/-- What is left of an event are its foreign handlers. -/
theorem handlerGroups_stripEntries {entries : List Value}
    (strippable : ∀ entry ∈ entries, IsStrippable entry)
    : handlerGroups (.array (stripEntries entries)) = foreignGroups (.array entries) := by
  rw [handlerGroups, foreignGroups, Value.asArray, Value.asArray, Option.getD_some,
    Option.getD_some, stripEntries_eq, List.map_filterMap]
  exact List.filterMap_congr fun entry inside => groupOf_stripEntry (strippable entry inside)

theorem foreignGroup_groupOf {entry : Value} {group : Value × List Value}
    (found : foreignGroup entry = some group)
    : retainForeign group.2 = group.2 ∧ group.2.isEmpty = false := by
  unfold foreignGroup at found
  dsimp only at found
  split at found
  · cases found
  · next filled =>
      obtain rfl := Option.some.inj found
      exact ⟨retainForeign_retainForeign _, by simpa using filled⟩

/-- Stripping does not touch the foreign handlers. -/
theorem foreignGroups_stripEntries {entries : List Value}
    (strippable : ∀ entry ∈ entries, IsStrippable entry)
    : foreignGroups (.array (stripEntries entries)) = foreignGroups (.array entries) := by
  simp only [foreignGroups, Value.asArray, Option.getD_some, stripEntries_eq]
  induction entries with
  | nil => rfl
  | cons entry rest ih =>
      obtain ⟨here, later⟩ := List.forall_mem_cons.mp strippable
      have same := groupOf_stripEntry here
      rw [List.filterMap_cons, List.filterMap_cons]
      cases left : stripEntry entry with
      | none =>
          rw [left] at same
          rw [← same]
          exact ih later
      | some stripped =>
          rw [left, Option.map_some] at same
          have kept := foreignGroup_groupOf same.symm
          have again : foreignGroup stripped = some (groupOf stripped) := by
            rw [foreignGroup]
            simp [kept]
          simp only [List.filterMap_cons, again, ← same, ih later]

theorem countManagedHandlers_append (first second : List Value)
    : countManagedHandlers (.array (first ++ second))
      = countManagedHandlers (.array first) + countManagedHandlers (.array second) := by
  simp [countManagedHandlers, Value.asArray]

theorem countManagedHandlers_stripEntries {entries : List Value}
    (strippable : ∀ entry ∈ entries, IsStrippable entry)
    : countManagedHandlers (.array (stripEntries entries)) = 0 := by
  rw [countManagedHandlers, Value.asArray, Option.getD_some, List.sum_eq_zero_iff_forall_eq_nat]
  intro count listed
  obtain ⟨stripped, inside, rfl⟩ := List.mem_map.mp listed
  rw [stripEntries_eq] at inside
  obtain ⟨entry, member, left⟩ := List.mem_filterMap.mp inside
  obtain ⟨-, plain, none⟩ := stripEntry_stripEntry (strippable entry member) left
  rw [plain, none]
  rfl

-- The generated entry

theorem containsText_append (before part after : String)
    : containsText (before ++ part ++ after) part = true := by
  simp only [containsText, decide_eq_true_eq, String.toList_append]
  exact ⟨before.toList, after.toList, rfl⟩

theorem containsText_hookCommand (client : AgentHookClient)
    (before configPath serverCommand : String)
    : containsText (before ++ hookCommand client configPath serverCommand) "--managed-id" = true
      ∧ containsText (before ++ hookCommand client configPath serverCommand) managedId = true := by
  have split : " --managed-id " = " " ++ "--managed-id" ++ " " := by decide
  constructor
  · have whole := containsText_append
      (before ++ (shellQuote serverCommand ++ " agent-hooks run --client " ++ client.id
        ++ " --config " ++ shellQuote configPath ++ " ")) "--managed-id" (" " ++ managedId)
    simpa only [hookCommand, split, String.append_assoc] using whole
  · have whole := containsText_append
      (before ++ (shellQuote serverCommand ++ " agent-hooks run --client " ++ client.id
        ++ " --config " ++ shellQuote configPath ++ " --managed-id ")) managedId ""
    simpa only [hookCommand, String.append_assoc, String.append_empty] using whole

theorem managedCommand_managedHook (client : AgentHookClient) (configPath serverCommand : String)
    : managedCommand (managedHook client configPath serverCommand) = true
      ∧ IsLeaf (managedHook client configPath serverCommand) := by
  cases client with
  | codex =>
      refine ⟨?_, rfl⟩
      obtain ⟨option, identity⟩ := containsText_hookCommand .codex "" configPath serverCommand
      rw [String.empty_append] at option identity
      simp [managedCommand, namesManagedId, managedHook, Value.get?, Value.asObject, Value.asStr,
        option, identity]
  | claude =>
      refine ⟨?_, rfl⟩
      have passed
          : ((managedHook .claude configPath serverCommand).items? "args").any passesManagedId
            = true := by
        simp [managedHook, Value.items?, Value.get?, Value.asObject, Value.asArray,
          passesManagedId, Value.asStr]
      rw [managedCommand, passed, Bool.or_true]
  | githubCopilot =>
      refine ⟨?_, rfl⟩
      obtain ⟨option, identity⟩ :=
        containsText_hookCommand .githubCopilot
          ("if [ -n \"" ++ promptVariable ++ "\" ] || ! command -v " ++ shellQuote serverCommand
            ++ " >/dev/null 2>&1; then exit 0; fi; ") configPath serverCommand
      have bash
          : namesManagedId (managedHook .githubCopilot configPath serverCommand) "bash"
            = true := by
        simp [namesManagedId, managedHook, Value.get?, Value.asObject, Value.asStr, bashHook,
          option, identity]
      rw [managedCommand, bash, Bool.or_true, Bool.true_or, Bool.true_or]

/-- The generated entry is our handler or a group of nothing else. -/
theorem generatedEntry_cases (client : AgentHookClient) (configPath serverCommand name : String)
    : IsLeaf (generatedEntry client configPath serverCommand name)
        ∧ managedCommand (generatedEntry client configPath serverCommand name) = true
      ∨ (generatedEntry client configPath serverCommand name).items? "hooks"
          = some [managedHook client configPath serverCommand]
        ∧ managedCommand (generatedEntry client configPath serverCommand name) = false := by
  obtain ⟨managed, leaf⟩ := managedCommand_managedHook client configPath serverCommand
  have matched (entry : Value) (key : String) (other : key ≠ "matcher")
      : (entry.insert "matcher" (.string ".*")).get? key = entry.get? key := by
    rw [Value.get?_insert, if_neg other]
  have same (entry : Value)
      : (entry.insert "matcher" (.string ".*")).items? "hooks" = entry.items? "hooks"
        ∧ managedCommand (entry.insert "matcher" (.string ".*")) = managedCommand entry := by
    constructor
    · rw [Value.items?, matched _ _ (by decide), Value.items?]
    · simp only [managedCommand, namesManagedId, Value.items?,
        matched entry "command" (by decide), matched entry "bash" (by decide),
        matched entry "powershell" (by decide), matched entry "args" (by decide)]
  have group
      : (Value.object [("hooks", .array [managedHook client configPath serverCommand])]).items?
            "hooks"
          = some [managedHook client configPath serverCommand]
        ∧ managedCommand (.object [("hooks", .array [managedHook client configPath serverCommand])])
          = false := ⟨rfl, rfl⟩
  simp only [generatedEntry]
  by_cases copilot : client = .githubCopilot
  · left
    simp only [copilot, if_true] at managed leaf ⊢
    split
    · exact ⟨(same _).1.trans leaf, (same _).2.trans managed⟩
    · exact ⟨leaf, managed⟩
  · right
    simp only [copilot, if_false]
    split
    · exact ⟨(same _).1.trans group.1, (same _).2.trans group.2⟩
    · exact group

theorem stripEntry_generated (client : AgentHookClient) (configPath serverCommand name : String)
    : stripEntry (generatedEntry client configPath serverCommand name) = none
      ∧ foreignGroup (generatedEntry client configPath serverCommand name) = none
      ∧ countManagedHandlers (.array [generatedEntry client configPath serverCommand name]) = 1 := by
  obtain ⟨managed, single⟩ := managedCommand_managedHook client configPath serverCommand
  rcases generatedEntry_cases client configPath serverCommand name with ⟨leaf, own⟩ | ⟨held, plain⟩
  · have none : (generatedEntry client configPath serverCommand name).items? "hooks" = none := leaf
    refine ⟨by rw [stripEntry_leaf leaf, if_pos own], ?_, ?_⟩
    · simp [foreignGroup, groupOf, none, retainForeign, own]
    · simp [countManagedHandlers, Value.asArray, own, none]
  · have removed : (retainForeign [managedHook client configPath serverCommand]).isEmpty = true := by
      simp [retainForeign, managed]
    refine ⟨?_, ?_, ?_⟩
    · rw [stripEntry_group held (by simpa using single) plain, if_pos removed]
    · simp [foreignGroup, groupOf, held, removed]
    · simp [countManagedHandlers, Value.asArray, plain, held, managed]

-- The events of a configuration

section Events

variable (client : AgentHookClient) (configPath serverCommand : String)

/-- What merging makes of an event. -/
def mergedEvent (name : String) (event : Option Value) : Value :=
  .array
    (stripEntries (((event.getD (.array [])).asArray).getD [])
      ++ [generatedEntry client configPath serverCommand name])

/-- Every event of the client is merged, by induction on their names. -/
theorem foldlM_mergeEvent {names : List String} (distinct : names.Nodup)
    {hooks : List (String × Value)}
    (sorted : hooks.Pairwise (fun first second => first.1 < second.1))
    (lists
      : ∀ name ∈ names, ∀ event, (Value.object hooks).get? name = some event
        → ∃ entries, event = .array entries)
    : ∃ merged,
        names.foldlM (mergeEvent client configPath serverCommand) hooks = .ok merged
        ∧ merged.Pairwise (fun first second => first.1 < second.1)
        ∧ (∀ name ∈ names,
            (Value.object merged).get? name
            = some
                (mergedEvent client configPath serverCommand name
                  ((Value.object hooks).get? name)))
        ∧ ∀ name, name ∉ names → (Value.object merged).get? name = (Value.object hooks).get? name := by
  induction names generalizing hooks with
  | nil => exact ⟨hooks, rfl, sorted, by simp, fun _ _ => rfl⟩
  | cons name rest ih =>
      obtain ⟨fresh, distinct'⟩ := List.nodup_cons.mp distinct
      obtain ⟨entries, array⟩
          : ∃ entries,
              (((Value.object hooks).get? name).getD (.array [])).asArray = some entries := by
        cases found : (Value.object hooks).get? name with
        | none => exact ⟨[], rfl⟩
        | some event =>
            obtain ⟨entries, rfl⟩ := lists name (List.mem_cons_self ..) event found
            exact ⟨entries, rfl⟩
      have step
          : mergeEvent client configPath serverCommand hooks name
            = .ok
                (insertSorted name
                  (mergedEvent client configPath serverCommand name
                    ((Value.object hooks).get? name))
                  hooks) := by
        have same : (hooks.find? (fun entry => entry.1 = name)).map Prod.snd
            = (Value.object hooks).get? name := rfl
        rw [mergeEvent, same, mergedEvent, array]
        rfl
      have entered (other : String)
          : (Value.object
                (insertSorted name
                  (mergedEvent client configPath serverCommand name
                    ((Value.object hooks).get? name))
                  hooks)).get? other
            = if other = name then
                some
                  (mergedEvent client configPath serverCommand name
                    ((Value.object hooks).get? name))
              else (Value.object hooks).get? other :=
        Value.get?_insert (.object hooks) name _ other
      obtain ⟨merged, folded, sorted', inside, outside⟩ :=
        ih distinct' (insertSorted_increasing sorted) (fun other listed event found => by
          have different : other ≠ name := fun same => fresh (same ▸ listed)
          rw [entered, if_neg different] at found
          exact lists other (List.mem_cons_of_mem _ listed) event found)
      refine ⟨merged, ?_, sorted', ?_, ?_⟩
      · rw [List.foldlM_cons, step]
        exact folded
      · intro other listed
        rcases List.mem_cons.mp listed with rfl | later
        · rw [outside other fresh, entered, if_pos rfl]
        · have different : other ≠ name := fun same => fresh (same ▸ later)
          rw [inside other later, entered, if_neg different]
      · intro other absent
        rw [List.mem_cons, not_or] at absent
        rw [outside other absent.2, entered, if_neg absent.1]

variable {client configPath serverCommand}

/-- Merging what has been merged changes nothing. -/
theorem foldlM_mergeEvent_self {names : List String} {hooks : List (String × Value)}
    (sorted : hooks.Pairwise (fun first second => first.1 < second.1))
    (merged
      : ∀ name ∈ names, ∃ event,
          (Value.object hooks).get? name = some event
          ∧ mergedEvent client configPath serverCommand name (some event) = event)
    : names.foldlM (mergeEvent client configPath serverCommand) hooks = .ok hooks := by
  induction names with
  | nil => rfl
  | cons name rest ih =>
      obtain ⟨⟨event, found, same⟩, later⟩ := List.forall_mem_cons.mp merged
      have step : mergeEvent client configPath serverCommand hooks name = .ok hooks := by
        have field : (hooks.find? (fun entry => entry.1 = name)).map Prod.snd = some event := found
        rw [mergedEvent, Option.getD_some] at same
        rw [mergeEvent, field, Option.getD_some]
        cases event with
        | array entries =>
            rw [Value.asArray, Option.getD_some] at same
            dsimp only [Value.asArray]
            rw [same, Value.insertSorted_self sorted field]
        | _ => cases same
      rw [List.foldlM_cons, step]
      exact ih later

end Events

-----------------------------------------------------------------------------------------
-- The whole configuration
-----------------------------------------------------------------------------------------

variable {client : AgentHookClient} {root : Value} {configPath serverCommand : String}

/-- The root before the events are merged. -/
structure Prepared (client : AgentHookClient) (root prepared : Value)
    (hooks : List (String × Value))
    : Prop where
  object : prepared.isObject = true
  held : prepared.get? "hooks" = some (.object hooks)
  sorted : hooks.Pairwise (fun first second => first.1 < second.1)
  events : ∀ name, (Value.object hooks).get? name = eventOf root name
  version : client = .githubCopilot → (prepared.get? "version").isSome = true
  others
    : ∀ key,
        key ≠ "hooks"
        → prepared.get? key = root.get? key
          ∨ (client = .githubCopilot ∧ key = "version" ∧ root.get? key = none)

theorem preparedRoot_prepared (shape : HookShape client root)
    : ∃ hooks, Prepared client root (preparedRoot client root) hooks := by
  obtain ⟨versioned, same, object, hooksKept, version, others⟩
      : ∃ versioned,
          (if client = .githubCopilot && (root.get? "version").isNone then
              root.insert "version" (.number "1")
            else root)
            = versioned
          ∧ versioned.isObject = true
          ∧ versioned.get? "hooks" = root.get? "hooks"
          ∧ (client = .githubCopilot → (versioned.get? "version").isSome = true)
          ∧ ∀ key,
              versioned.get? key = root.get? key
              ∨ (client = .githubCopilot ∧ key = "version" ∧ root.get? key = none) := by
    refine ⟨_, rfl, ?_⟩
    split
    · next enters =>
        simp only [Bool.and_eq_true, decide_eq_true_eq, Option.isNone_iff_eq_none] at enters
        refine ⟨(Value.isObject_insert ..).trans shape.object, ?_, fun _ => ?_, fun key => ?_⟩
        · rw [Value.get?_insert, if_neg (by decide)]
        · rw [Value.get?_insert, if_pos rfl, shape.object]
          rfl
        · by_cases here : key = "version"
          · exact Or.inr ⟨enters.1, here, here ▸ enters.2⟩
          · exact Or.inl (by rw [Value.get?_insert, if_neg here])
    · next present =>
        refine ⟨shape.object, rfl, fun copilot => ?_, fun _ => Or.inl rfl⟩
        simpa [copilot, Option.isSome_iff_ne_none] using present
  unfold preparedRoot
  rw [same]
  dsimp only
  cases found : root.get? "hooks" with
  | some field =>
      obtain ⟨hooks, rfl, sorted⟩ := shape.hooks field found
      refine ⟨hooks, ?_⟩
      have holds : (some (Value.object hooks)).any Value.isObject = true := rfl
      rw [hooksKept, found, if_pos holds]
      exact ⟨object, hooksKept.trans found, sorted, fun name => by rw [eventOf, found]; rfl, version,
        fun key _ => others key⟩
  | none =>
      refine ⟨[], ?_⟩
      rw [hooksKept, found, if_neg (by simp)]
      refine ⟨(Value.isObject_insert ..).trans object, ?_, List.Pairwise.nil, ?_, ?_, ?_⟩
      · rw [Value.get?_insert, if_pos rfl, object, if_pos rfl]
      · intro name
        rw [eventOf, found]
        rfl
      · intro copilot
        rw [Value.get?_insert, if_neg (by decide)]
        exact version copilot
      · intro key other
        rw [Value.get?_insert, if_neg other]
        exact others key

theorem eventNames_nodup (client : AgentHookClient) : (eventNames client).Nodup := by
  cases client <;> decide

theorem Prepared.of_merged {prepared : Value} {hooks : List (String × Value)}
    (holds : Prepared client root prepared hooks) (merged : List (String × Value))
    : (prepared.modify "hooks" (fun _ => .object merged)).get? "hooks" = some (.object merged)
      ∧ preparedRoot client (prepared.modify "hooks" (fun _ => .object merged))
        = prepared.modify "hooks" (fun _ => .object merged) := by
  have field
      : (prepared.modify "hooks" (fun _ => .object merged)).get? "hooks"
        = some (.object merged) := by
    rw [Value.get?_modify, if_pos rfl, holds.held]
    rfl
  have version : (prepared.modify "hooks" (fun _ => .object merged)).get? "version"
      = prepared.get? "version" := by
    rw [Value.get?_modify, if_neg (by decide)]
  refine ⟨field, ?_⟩
  have entered
      : (decide (client = .githubCopilot)
            && ((prepared.modify "hooks" (fun _ => .object merged)).get? "version").isNone)
        = false := by
    rw [version]
    by_cases copilot : client = .githubCopilot
    · simpa [copilot, Option.isSome_iff_ne_none] using holds.version copilot
    · simp [copilot]
  have object : (some (Value.object merged)).any Value.isObject = true := rfl
  simp only [preparedRoot, entered, Bool.false_eq_true, if_false, field, object, if_true]

theorem mergeHooks_of_folded {prepared : Value} {hooks merged : List (String × Value)}
    (object : root.isObject = true) (same : preparedRoot client root = prepared)
    (held : prepared.get? "hooks" = some (.object hooks))
    (folded
      : (eventNames client).foldlM (mergeEvent client configPath serverCommand) hooks
        = .ok merged)
    : mergeHooks client root configPath serverCommand
      = .ok (prepared.modify "hooks" (fun _ => .object merged), true) := by
  have named : (!(eventNames client).isEmpty) = true := by cases client <;> rfl
  rw [mergeHooks, object, same]
  simp only [Bool.not_true, Bool.false_eq_true, if_false, held, Option.bind_some, Value.asObject,
    folded, named]
  rfl

theorem get?_map_values (hooks : List (String × Value)) (change : Value → Value) (name : String)
    : (Value.object (hooks.map (fun event => (event.1, change event.2)))).get? name
      = ((Value.object hooks).get? name).map change := by
  simp only [Value.get?, Value.asObject, Option.bind_some]
  induction hooks with
  | nil => rfl
  | cons event rest ih =>
      by_cases here : event.1 = name
      · simp [here]
      · simpa [here] using ih

theorem isStrippable_of_event {event : Value} (shape : HasEventShape client event)
    (plain : PlainGroups event)
    : ∃ entries, event = .array entries ∧ ∀ entry ∈ entries, IsStrippable entry := by
  obtain ⟨entries, rfl, shaped⟩ := shape
  exact ⟨entries, rfl, fun entry inside =>
    isStrippable_of_shape (shaped entry inside) (plain entries rfl entry inside)⟩

/-- Merging is idempotent and enters one managed handler into each event of the client. The foreign
handlers stay in their events and groups, and so do the other events and keys, but for the version
that a configuration without one gets. Removing leaves the foreign handlers. Witness:
`mergeHooks_foreign_mixed`.
-/
theorem mergeHooks_foreign (client : AgentHookClient) (root : Value)
    (configPath serverCommand : String) (shape : HookShape client root)
    (groups : ∀ name event, eventOf root name = some event → PlainGroups event)
    : MergesHooks client root configPath serverCommand := by
  obtain ⟨hooks, prepared⟩ := preparedRoot_prepared shape
  have plain (name : String) : PlainGroups ((eventOf root name).getD (.array [])) := by
    cases found : eventOf root name with
    | some event => exact groups name event found
    | none =>
        rintro entries same entry inside
        obtain rfl := Value.array.inj same
        cases inside
  have shaped (name : String) (listed : name ∈ eventNames client)
      : HasEventShape client ((eventOf root name).getD (.array [])) := by
    cases found : eventOf root name with
    | some event => exact shape.events name listed event found
    | none => exact ⟨[], rfl, by simp⟩
  obtain ⟨merged, folded, sorted, inside, outside⟩ :=
    foldlM_mergeEvent client configPath serverCommand (eventNames_nodup client) prepared.sorted
      (fun name listed event found => by
        rw [prepared.events] at found
        obtain ⟨entries, same, -⟩ := shape.events name listed event found
        exact ⟨entries, same⟩)
  obtain ⟨held, again⟩ := prepared.of_merged merged
  have found (name : String)
      : eventOf ((preparedRoot client root).modify "hooks" (fun _ => .object merged)) name
        = (Value.object merged).get? name := by
    rw [eventOf, held]
    rfl
  -- A client's event: what was stripped, and our entry.
  have event (name : String) (listed : name ∈ eventNames client)
      : ∃ entries,
          (eventOf root name).getD (.array []) = .array entries
          ∧ (∀ entry ∈ entries, IsStrippable entry)
          ∧ (Value.object merged).get? name
            = some
                (.array
                  (stripEntries entries
                    ++ [generatedEntry client configPath serverCommand name])) := by
    obtain ⟨entries, same, strippable⟩ := isStrippable_of_event (shaped name listed) (plain name)
    refine ⟨entries, same, strippable, ?_⟩
    rw [inside name listed, prepared.events, mergedEvent, same]
    rfl
  have restripped (name : String) {entries : List Value}
      (strippable : ∀ entry ∈ entries, IsStrippable entry)
      : stripEntries
            (stripEntries entries ++ [generatedEntry client configPath serverCommand name])
          = stripEntries entries := by
    have ours : stripEntries [generatedEntry client configPath serverCommand name] = [] := by
      rw [stripEntries_eq, List.filterMap_cons,
        (stripEntry_generated client configPath serverCommand name).1]
      rfl
    rw [stripEntries_append, stripEntries_stripEntries strippable, ours, List.append_nil]
  refine ⟨_, mergeHooks_of_folded shape.object rfl prepared.held folded, ?_, ?_, ?_, ?_, ?_⟩
  · have refolded := foldlM_mergeEvent_self sorted (fun name listed => by
      obtain ⟨entries, -, strippable, same⟩ := event name listed
      refine ⟨_, same, ?_⟩
      rw [mergedEvent, Option.getD_some, Value.asArray, Option.getD_some,
        restripped name strippable])
    have object
        : ((preparedRoot client root).modify "hooks" (fun _ => .object merged)).isObject = true :=
      (Value.isObject_modify ..).trans prepared.object
    have merges := mergeHooks_of_folded object again held refolded
    rwa [Value.modify_modify] at merges
  · intro name listed
    obtain ⟨entries, same, strippable, field⟩ := event name listed
    obtain ⟨-, ours, single⟩ := stripEntry_generated client configPath serverCommand name
    refine ⟨_, (found name).trans field, ?_, ?_⟩
    · rw [countManagedHandlers_append, countManagedHandlers_stripEntries strippable, single]
    · rw [same, ← foreignGroups_stripEntries strippable]
      simp [foreignGroups, Value.asArray, ours]
  · intro key other
    rw [Value.get?_modify, if_neg other]
    exact prepared.others key other
  · intro name absent
    rw [found, outside name absent, prepared.events]
  · intro name shaped
    obtain ⟨entries, same, strippable⟩ := isStrippable_of_event shaped (plain name)
    have removed
        : eventOf
              (removeHooks
                ((preparedRoot client root).modify "hooks" (fun _ => .object merged))).1 name
          = ((Value.object merged).get? name).map stripEvent := by
      rw [removeHooks, held]
      dsimp only [Option.bind_some, Value.asObject]
      rw [Value.modify_modify, eventOf, (prepared.of_merged _).1, Option.bind_some,
        get?_map_values]
    rw [removed, same]
    by_cases listed : name ∈ eventNames client
    · obtain ⟨entries', same', -, field⟩ := event name listed
      obtain rfl := Value.array.inj (same'.symm.trans same)
      rw [field, Option.map_some, Option.getD_some, stripEvent, restripped name strippable]
      exact handlerGroups_stripEntries strippable
    · rw [outside name listed, prepared.events]
      cases held' : eventOf root name with
      | none =>
          rw [held'] at same
          obtain rfl := Value.array.inj same
          rfl
      | some event' =>
          rw [held', Option.getD_some] at same
          rw [same, Option.map_some, Option.getD_some, stripEvent]
          exact handlerGroups_stripEntries strippable

-- Sample configurations

/-- A configuration with one list of groups, before the first tool use. -/
def groupedRoot (groups : List Value) : Value :=
  .object [("hooks", .object [("PreToolUse", .array groups)])]

theorem eventOf_groupedRoot {groups : List Value} {name : String} {event : Value}
    (found : eventOf (groupedRoot groups) name = some event)
    : event = .array groups := by
  simp only [eventOf, groupedRoot, Value.get?, Value.asObject, Option.bind_some,
    List.find?_cons, List.find?_nil] at found
  by_cases here : "PreToolUse" = name
  · simpa [here, eq_comm] using found
  · simp [here] at found

theorem hookShape_groupedRoot {groups : List Value} (grouped : ∀ group ∈ groups, IsGroup group)
    : HookShape .codex (groupedRoot groups) where
  object := rfl
  hooks hooks held := by
    obtain rfl := Option.some.inj held
    exact ⟨_, rfl, List.pairwise_singleton _ _⟩
  events name _ event found := ⟨groups, eventOf_groupedRoot found, grouped⟩

def commandHandler (command : String) : Value := .object [("command", .string command)]

/-- A group of a foreign handler and one of ours. -/
def mixedGroup : Value :=
  .object
    [
      (
        "hooks",
        .array [commandHandler "lint", commandHandler "graph --managed-id codebase-graph-v1"]
      )
    ]

/-- Witness: a mixed group keeps its foreign handler. -/
theorem mergeHooks_foreign_mixed
    : MergesHooks .codex (groupedRoot [mixedGroup]) "/r/.codebaseGraph/config.json" "graph" := by
  refine mergeHooks_foreign .codex (groupedRoot [mixedGroup]) _ _ (hookShape_groupedRoot ?_) ?_
  · intro group listed
    obtain rfl := List.mem_singleton.mp listed
    refine ⟨_, rfl, List.cons_ne_nil _ _, ?_⟩
    intro handler inside
    rcases List.mem_pair.mp inside with rfl | rfl <;> rfl
  · rintro name event found entries same entry inside -
    rw [eventOf_groupedRoot found] at same
    obtain rfl := Value.array.inj same
    obtain rfl := List.mem_singleton.mp inside
    rfl

/-- A group of a foreign handler that has a command line of its own. -/
def commandGroup : Value :=
  .object
    [
      ("command", .string "graph --managed-id codebase-graph-v1"),
      ("hooks", .array [commandHandler "lint"])
    ]

/-- The group goes, and the foreign handler with it. -/
theorem mergeHooks_commandGroup
    : ¬(∀ client root configPath serverCommand,
        HookShape client root → MergesHooks client root configPath serverCommand) := by
  intro merges
  have shape : HookShape .codex (groupedRoot [commandGroup]) := by
    refine hookShape_groupedRoot fun group listed => ?_
    obtain rfl := List.mem_singleton.mp listed
    refine ⟨_, rfl, List.cons_ne_nil _ _, ?_⟩
    intro handler inside
    obtain rfl := List.mem_singleton.mp inside
    rfl
  obtain ⟨merged, done, -, events, -⟩ := merges _ _ "config.json" "graph" shape
  obtain ⟨event, found, -, kept⟩ := events "PreToolUse" (by decide)
  have lost
      : (mergeHooks .codex (groupedRoot [commandGroup]) "config.json" "graph").toOption.map
            (fun result => (foreignGroups ((eventOf result.1 "PreToolUse").getD .null)).length)
          = some 0 := by
    decide +kernel
  rw [done] at lost
  have none : (foreignGroups event).length = 0 := by
    simpa [Except.toOption, found] using lost
  rw [kept] at none
  exact absurd none (by decide +kernel)

end CodebaseGraph.Setup
