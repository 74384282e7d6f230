import CodebaseGraph.Wiki.CompiledParts

/-! The items of the log documents. A log is read line by line: the parser jumps over the lines
that continue an item, and each line is still looked at for itself.
-/

namespace CodebaseGraph.Wiki

open CodebaseGraph.Collections CodebaseGraph.Sorting

variable {libraries : TextLibraries}

-- Items under a date

/-- The text of a heading line. -/
def headingText (line : String) : Option String := (parseHeadingLine (trim line)).map Prod.snd

/-- The date of a date heading. -/
def headingDate (line : String) : Option String := (headingText line).filter isIsoDate

/-- The date of the last date heading of the lines. -/
def dateAbove (above : List String) : Option String := (above.filterMap headingDate).getLast?

/-- The last heading of the lines after their last date heading. -/
def categoryAbove (above : List String) : String :=
  let since := above.reverse.takeWhile (fun line => (headingDate line).isNone)
  (since.filterMap headingText).head?.getD "update"

/-- The entry of a line that is a list item under a date heading. -/
def datedItem (log : LogSource) (above : List String) (line : String) (below : List String)
    : Option LogEntry := do
  let date ← dateAbove above
  let (_, text, _) ← if (headingText line).isSome then none else parseListItem (line :: below)
  return {
    scopePath := log.scopePath, date, category := categoryAbove above, text,
    links := extractAllHrefs text
  }

/-- The entries of the lines below others. -/
def datedItemsBelow (log : LogSource) : List String → List String → List LogEntry
  | _, [] => []
  | above, line :: below =>
      (datedItem log above line below).toList ++ datedItemsBelow log (above ++ [line]) below

/-- The list items under a date heading of a log. -/
def datedItems (log : LogSource) : List LogEntry := datedItemsBelow log [] (lines log.bodyMarkdown)

-- Headings above

theorem dateAbove_append (above : List String) (line : String)
    : dateAbove (above ++ [line]) = (headingDate line).or (dateAbove above) := by
  rw [dateAbove, List.filterMap_append, List.getLast?_append]
  cases dated : headingDate line <;> simp [dated, dateAbove]

/-- A date heading starts anew with the category. -/
theorem categoryAbove_dated {line date : String} (dated : headingDate line = some date)
    (above : List String)
    : categoryAbove (above ++ [line]) = "update" := by
  simp [categoryAbove, dated]

theorem categoryAbove_undated {line : String} (undated : headingDate line = none)
    (above : List String)
    : categoryAbove (above ++ [line]) = (headingText line).getD (categoryAbove above) := by
  cases text : headingText line <;> simp [categoryAbove, undated, text]

/-- A line without a heading does not change what is above the next. -/
theorem above_plain {line : String} (plain : headingText line = none) (above : List String)
    : dateAbove (above ++ [line]) = dateAbove above
      ∧ categoryAbove (above ++ [line]) = categoryAbove above := by
  have undated : headingDate line = none := by rw [headingDate, plain, Option.filter_none]
  rw [dateAbove_append, categoryAbove_undated undated, undated, plain]
  exact ⟨rfl, rfl⟩

-----------------------------------------------------------------------------------------
-- Continued items
-----------------------------------------------------------------------------------------

/-- Neither a heading nor a list item. -/
structure PlainLine (line : String) : Prop where
  unheaded : headingText line = none
  unmarked : parseListMarker (trimStartOf isWhitespace (trimEndOf isWhitespace line)) = none

theorem trim_trimEnd (line : String) : trim (trimEndOf isWhitespace line) = trim line := by
  refine String.toList_injective ?_
  rw [toList_trim, toList_trim, toList_trimEndOf]
  induction line.toList using List.reverseRecOn with
  | nil => rfl
  | append_singleton text last ih =>
      by_cases white : isWhitespace last
      · rw [List.rdropWhile_concat_pos _ _ _ white, ih, List.dropWhile_append]
        split
        · next blank =>
            rw [List.isEmpty_iff.mp blank, List.dropWhile_cons_of_pos white, List.dropWhile_nil]
        · rw [List.rdropWhile_concat_pos _ _ _ white]
      · rw [List.rdropWhile_concat_neg _ _ _ white]

theorem continuation_cons (next : String) (rest : List String)
    : continuation (next :: rest)
      = if trim (trimEndOf isWhitespace next) = "" then []
        else if (parseHeadingLine (trim (trimEndOf isWhitespace next))).isSome
            || (parseListMarker (trimStartOf isWhitespace (trimEndOf isWhitespace next))).isSome
          then []
        else if startsWith next " " || startsWith next "\t" then
          trim (trimEndOf isWhitespace next) :: continuation rest
        else [] :=
  rfl

/-- The lines that continue an item are plain. -/
theorem continuation_plain (below : List String)
    : (continuation below).length ≤ below.length
      ∧ ∀ line ∈ below.take (continuation below).length, PlainLine line := by
  induction below with
  | nil => simp [continuation]
  | cons line rest ih =>
      rw [continuation_cons]
      split
      · simp
      · split
        · simp
        · next unmarked =>
            split
            · simp only [Bool.or_eq_true, not_or, Option.isSome_iff_ne_none, ne_eq, not_not]
                at unmarked
              refine ⟨by simpa using ih.1, ?_⟩
              intro other inside
              rw [List.length_cons, List.take_succ_cons, List.mem_cons] at inside
              rcases inside with rfl | later
              · exact ⟨by rw [headingText, ← trim_trimEnd, unmarked.1]; rfl, unmarked.2⟩
              · exact ih.2 other later
            · simp

theorem parseListItem_cons (line : String) (below : List String)
    : parseListItem (line :: below)
      = (parseListMarker (trimStartOf isWhitespace (trimEndOf isWhitespace line))).map
          (fun found =>
            (
              found.1,
              joinWith ' ' (trim found.2 :: continuation below),
              1 + (continuation below).length
            )) := by
  unfold parseListItem
  dsimp only
  cases parseListMarker (trimStartOf isWhitespace (trimEndOf isWhitespace line)) <;> rfl

theorem parseListItem_plain {line : String} (plain : PlainLine line) (below : List String)
    : parseListItem (line :: below) = none := by
  rw [parseListItem_cons, plain.unmarked, Option.map_none]

/-- An item takes its line and those that continue it. -/
theorem parseListItem_consumed {line text : String} {below : List String} {number consumed : Nat}
    (item : parseListItem (line :: below) = some (number, text, consumed))
    : consumed = 1 + (continuation below).length := by
  rw [parseListItem_cons, Option.map_eq_some_iff] at item
  obtain ⟨found, -, parts⟩ := item
  exact (congrArg (fun parts => parts.2.2) parts).symm

/-- Plain lines have no entries and change nothing for those below, by induction on them. -/
theorem datedItemsBelow_plain (log : LogSource) {between : List String}
    (plain : ∀ line ∈ between, PlainLine line) (above below : List String)
    : datedItemsBelow log above (between ++ below)
        = datedItemsBelow log (above ++ between) below
      ∧ dateAbove (above ++ between) = dateAbove above
      ∧ categoryAbove (above ++ between) = categoryAbove above := by
  induction between generalizing above with
  | nil => simp
  | cons line rest ih =>
      have here := plain line (by simp)
      obtain ⟨items, date, category⟩ :=
        ih (fun other inside => plain other (by simp [inside])) (above ++ [line])
      obtain ⟨sameDate, sameCategory⟩ := above_plain here.unheaded above
      have silent : datedItem log above line (rest ++ below) = none := by
        rw [datedItem, parseListItem_plain here]
        cases dateAbove above <;> simp
      rw [List.append_assoc] at items date category
      refine ⟨?_, date.trans sameDate, category.trans sameCategory⟩
      rw [List.cons_append, datedItemsBelow, silent]
      exact items

-- The entries of a log

/-- The parser, below some lines, finds the entries of each line, by induction on its steps. -/
theorem logEntriesIn_entries (log : LogSource) (fuel index : Nat) (above below : List String)
    (enough : below.length ≤ fuel) (category : String)
    (since : category = if (dateAbove above).isSome then categoryAbove above else "update")
    : (logEntriesIn log fuel index (dateAbove above) category below).1
      = datedItemsBelow log above below := by
  induction fuel generalizing index above below category with
  | zero =>
      obtain rfl := List.length_eq_zero_iff.mp (Nat.le_zero.mp enough)
      rfl
  | succ fuel ih =>
      cases below with
      | nil => rfl
      | cons line rest =>
          have shorter : rest.length ≤ fuel := by simpa using enough
          have undatedText {heading : String} (text : headingText line = some heading)
              (undated : isIsoDate heading = false)
              : headingDate line = none := by
            rw [headingDate, text, Option.filter_some, undated]
            rfl
          rw [datedItemsBelow]
          unfold logEntriesIn
          dsimp only
          split
          · next level heading headed =>
              have text : headingText line = some heading := by rw [headingText, headed]; rfl
              have silent : datedItem log above line rest = none := by
                rw [datedItem, text]
                cases dateAbove above <;> rfl
              rw [silent, Option.toList_none, List.nil_append]
              split
              · next dated =>
                  have date : headingDate line = some heading := by
                    rw [headingDate, text, Option.filter_some, if_pos dated]
                  have after : dateAbove (above ++ [line]) = some heading := by
                    rw [dateAbove_append, date, Option.some_or]
                  rw [← after]
                  refine ih _ _ _ shorter _ ?_
                  rw [after, categoryAbove_dated date]
                  rfl
              · next undated =>
                  have date := undatedText text (by simpa using undated)
                  have after : dateAbove (above ++ [line]) = dateAbove above := by
                    rw [dateAbove_append, date, Option.none_or]
                  rw [← after]
                  refine ih _ _ _ shorter _ ?_
                  rw [after, categoryAbove_undated date, text, since]
                  split <;> rfl
          · next unheaded =>
              have plain : headingText line = none := by rw [headingText, unheaded]; rfl
              obtain ⟨date, sameCategory⟩ := above_plain plain above
              split
              · next other =>
                  have silent : datedItem log above line rest = none := by
                    rw [datedItem, other]
                    cases dateAbove above <;> simp
                  rw [silent, Option.toList_none, List.nil_append, ← date]
                  refine ih _ _ _ shorter _ ?_
                  rw [date, sameCategory, since]
              · next number text consumed item =>
                  obtain ⟨-, continued⟩ := continuation_plain rest
                  have behind
                      : (line :: rest).drop consumed
                        = rest.drop (continuation rest).length := by
                    rw [parseListItem_consumed item, Nat.add_comm, List.drop_succ_cons]
                  obtain ⟨items, sameDate, kept⟩ := datedItemsBelow_plain log continued
                    (above ++ [line]) (rest.drop (continuation rest).length)
                  rw [List.take_append_drop] at items
                  rw [date] at sameDate
                  have later := ih (index + consumed)
                    (above ++ [line] ++ rest.take (continuation rest).length)
                    (rest.drop (continuation rest).length)
                    (by rw [List.length_drop]; omega) category
                    (by rw [sameDate, kept, sameCategory, since])
                  rw [sameDate] at later
                  rw [behind, items, ← later, datedItem, plain, item]
                  cases dated : dateAbove above with
                  | none => rfl
                  | some day =>
                      rw [dated] at since
                      rw [since]
                      rfl

theorem parseLogEntries_entries (log : LogSource) : (parseLogEntries log).1 = datedItems log :=
  logEntriesIn_entries log _ 0 [] _ le_rfl _ rfl

-----------------------------------------------------------------------------------------
-- The logs of a bundle
-----------------------------------------------------------------------------------------

/-- A log document with the directory it is about. -/
def SourceDocument.logSource (document : SourceDocument) : LogSource :=
  let path := normalizeSourcePath document.path
  {
    scopePath := reservedDocumentDirectory path, sourcePath := path,
    bodyMarkdown := document.bodyMarkdown
  }

def SourceBundle.logSources (source : SourceBundle) : List LogSource :=
  (source.documents.filter (fun document => document.kind = .log)).map SourceDocument.logSource

/-- No directory has log entries. -/
def Unlogged (directories : Directories) : Prop :=
  ∀ path entry, directories.get? path = some entry → entry.logEntries = []

theorem Unlogged.ensureDirectoryChain {directories : Directories}
    (unlogged : Unlogged directories) (chain : String)
    : Unlogged (ensureDirectoryChain chain directories) := by
  intro path entry found
  rw [ensureDirectoryChain_get?] at found
  split at found
  · rw [← Option.some.inj found]
    cases old : directories.get? path with
    | none => rfl
    | some before => exact unlogged path before old
  · exact unlogged path entry found

theorem Unlogged.update {directories : Directories} (unlogged : Unlogged directories)
    {change : DirectoryDraft → DirectoryDraft}
    (keeps : ∀ entry, (change entry).logEntries = entry.logEntries) (scope : String)
    : Unlogged (directories.update scope {} change) := by
  intro path entry found
  rw [SortedMap.get?_update] at found
  split at found
  · rw [← Option.some.inj found, keeps]
    cases old : directories.get? scope with
    | none => rfl
    | some before => exact unlogged scope before old
  · exact unlogged path entry found

theorem Unlogged.modify {directories : Directories} (unlogged : Unlogged directories)
    {change : DirectoryDraft → DirectoryDraft}
    (keeps : ∀ entry, (change entry).logEntries = entry.logEntries) (scope : String)
    : Unlogged (directories.modify scope change) := by
  intro path entry found
  rw [SortedMap.get?_modify] at found
  split at found
  · obtain ⟨before, old, rfl⟩ := Option.map_eq_some_iff.mp found
    rw [keeps]
    exact unlogged scope before old
  · exact unlogged path entry found

/-- What a draft knows of the logs among some documents. -/
structure LogInvariant (documents : List SourceDocument) (draft : CompileDraft) : Prop where
  logs
    : draft.logs
      = (documents.filter (fun document => document.kind = .log)).map SourceDocument.logSource
  placed : ∀ log ∈ draft.logs, log.scopePath ∈ draft.directories.keys
  unlogged : Unlogged draft.directories

/-- A document that is no log keeps the logs and adds directories without log entries. -/
theorem LogInvariant.withDirectories {documents : List SourceDocument}
    {before after : CompileDraft} (holds : LogInvariant documents before)
    (logs : after.logs = before.logs)
    (grown : ∀ path ∈ before.directories.keys, path ∈ after.directories.keys)
    (unlogged : Unlogged after.directories) {document : SourceDocument}
    (other : document.kind ≠ .log)
    : LogInvariant (documents ++ [document]) after := by
  refine ⟨?_, ?_, unlogged⟩
  · rw [logs, holds.logs]
    simp [other]
  · intro log inside
    exact grown _ (holds.placed log (logs ▸ inside))

variable (libraries) in
theorem LogInvariant.addDocument {documents : List SourceDocument} {draft : CompileDraft}
    (holds : LogInvariant documents draft) (bundleId : String) (document : SourceDocument)
    : LogInvariant (documents ++ [document]) (draft.addDocument libraries bundleId document) := by
  have chained (chain : String) := holds.unlogged.ensureDirectoryChain chain
  have grown (chain scope : String) (change : DirectoryDraft → DirectoryDraft) (path : String)
      (inside : path ∈ draft.directories.keys)
      : path
        ∈ ((ensureDirectoryChain chain draft.directories).update scope {} change).keys :=
    SortedMap.mem_keys_update.mpr (Or.inr (mem_keys_ensureDirectoryChain.mpr (Or.inr inside)))
  rw [CompileDraft.addDocument]
  split
  · next kind =>
      have other : document.kind ≠ .log := by rw [kind]; decide
      simp only [CompileDraft.addConcept]
      generalize conceptIdFromSourcePath (normalizeSourcePath document.path) = conceptId
      generalize parentDirectory (normalizeSourcePath document.path) = chain
      split
      all_goals
        refine holds.withDirectories ?_ ?_ ?_ other
        · rfl
        · dsimp only
          exact grown _ _ _
        · dsimp only
          refine (chained _).update ?_ _
          exact fun _ => rfl
  · next kind =>
      have other : document.kind ≠ .log := by rw [kind]; decide
      simp only [CompileDraft.addIndex]
      generalize reservedDocumentDirectory (normalizeSourcePath document.path) = chain
      refine holds.withDirectories ?_ ?_ ?_ other
      · rfl
      · dsimp only
        exact grown _ _ _
      · dsimp only
        refine (chained _).update ?_ _
        exact fun _ => rfl
  · next kind =>
      refine ⟨?_, ?_, ?_⟩
      · simp [CompileDraft.addLog, holds.logs, kind, SourceDocument.logSource]
      · intro log inside
        simp only [CompileDraft.addLog, mem_keys_ensureDirectoryChain, List.mem_append,
          List.mem_singleton] at inside ⊢
        generalize reservedDocumentDirectory (normalizeSourcePath document.path) = chain
          at inside ⊢
        rcases inside with old | new
        · exact Or.inr (holds.placed log old)
        · rw [new]
          exact Or.inl (self_mem_ancestorDirectories _)
      · simp only [CompileDraft.addLog]
        exact chained _

theorem logInvariant_ofDocuments (libraries : TextLibraries) (source : SourceBundle)
    : LogInvariant source.documents (.ofDocuments libraries source) := by
  have run (before documents : List SourceDocument) (draft : CompileDraft)
      (holds : LogInvariant before draft)
      : LogInvariant (before ++ documents)
          (documents.foldl (CompileDraft.addDocument libraries source.id) draft) := by
    induction documents generalizing before draft with
    | nil => rwa [List.append_nil]
    | cons document rest ih =>
        have next := ih _ _ (holds.addDocument libraries source.id document)
        rwa [List.append_assoc, List.singleton_append] at next
  refine run [] source.documents .start ⟨rfl, by simp [CompileDraft.start], ?_⟩
  intro path entry found
  simp only [CompileDraft.start, SortedMap.get?_insert, SortedMap.get?_empty] at found
  split at found
  · rw [← Option.some.inj found]
  · cases found

theorem unlogged_hierarchy (libraries : TextLibraries) (source : SourceBundle)
    : Unlogged (source.hierarchy libraries) := by
  have nested (paths : List String) (directories : Directories)
      (unlogged : Unlogged directories)
      : Unlogged
          (paths.foldl
            (fun map path =>
              if path = "" then map
              else
                map.modify (parentDirectoryFromDirectory path)
                  (fun entry =>
                    { entry with childDirectories := entry.childDirectories.insert path () }))
            directories) := by
    induction paths generalizing directories with
    | nil => exact unlogged
    | cons path rest ih =>
        rw [List.foldl_cons]
        refine ih _ ?_
        split
        · exact unlogged
        · refine unlogged.modify ?_ _
          exact fun _ => rfl
  intro path entry found
  rw [SourceBundle.hierarchy, CompileDraft.hierarchy, finalizeDirectories,
    SortedMap.get?_mapValues, Option.map_eq_some_iff] at found
  obtain ⟨before, old, rfl⟩ := found
  have none := nested _ _ (logInvariant_ofDocuments libraries source).unlogged path before old
  dsimp only
  split <;> split <;> exact none

/-- The log entries of a directory are the items of the logs in it and below it. -/
theorem directories_logEntries (libraries : TextLibraries) (source : SourceBundle)
    {path : String} {entry : DirectoryDraft}
    (found : (source.directories libraries).get? path = some entry)
    : entry.logEntries = entriesWithin source.logSources path := by
  have logs : (CompileDraft.ofDocuments libraries source).logs = source.logSources :=
    (logInvariant_ofDocuments libraries source).logs
  rw [directories_get?, Option.map_eq_some_iff] at found
  obtain ⟨before, old, rfl⟩ := found
  rw [DirectoryDraft.log, unlogged_hierarchy libraries source path before old, logs,
    List.nil_append]

theorem mem_directories_scope (libraries : TextLibraries) (source : SourceBundle)
    {log : LogSource} (inside : log ∈ source.logSources)
    : log.scopePath ∈ (source.directories libraries).keys := by
  have holds := logInvariant_ofDocuments libraries source
  have drafted := holds.placed log (holds.logs ▸ inside)
  obtain ⟨entry, found⟩ :=
    SortedMap.mem_keys_iff.mp ((mem_keys_hierarchy libraries _ source.title).mpr drafted)
  rw [SortedMap.mem_keys_iff, directories_get?, SourceBundle.hierarchy, found]
  exact ⟨_, rfl⟩

end CodebaseGraph.Wiki
