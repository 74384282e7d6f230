import CodebaseGraph.Wiki.CompiledParts

/-! Where the links of a compiled bundle lead. A link that leaves the bundle or has a foreign
scheme is always rejected, and a resolved one leads to a concept or to a directory that exists,
except to the `index.md` or `log.md` of a directory that does not.
-/

namespace CodebaseGraph.Wiki

open CodebaseGraph.Collections CodebaseGraph.Sorting

variable {libraries : TextLibraries}

-- Paths that leave the root

section Targets

variable {bundleId sourceDirectory rawPath normalized : String}
  {conceptIds directoryPaths : SortedSet String}

end Targets

-- Directories read back from their routes

theorem splitOnceAt_skip {skipped : List Char} (plain : ':' ∉ skipped) (rest before : List Char)
    : splitOnceAt.go ":directory:" (skipped ++ rest) before
      = splitOnceAt.go ":directory:" rest (skipped.reverse ++ before) := by
  induction skipped generalizing before with
  | nil => rfl
  | cons character skipped ih =>
      obtain ⟨other, plain⟩ := not_or.mp (List.mem_cons.not.mp plain)
      have mismatch
          : ":directory:".toList.isPrefixOf (character :: (skipped ++ rest)) = false := by
        simp [List.isPrefixOf, other]
      rw [List.cons_append, splitOnceAt.go, mismatch]
      simpa using ih plain (character :: before)

/-- The route of a directory is read back as its path, in a bundle with an ordinary name. -/
theorem directoryPathFromRoute_route {bundleId path : String} (plain : ':' ∉ bundleId.toList)
    (other : bundleId ≠ "directory") (named : path ≠ "/")
    : directoryPathFromRoute (directoryRouteId bundleId path) = some path := by
  -- The colon before the bundle's name starts no separator, the one after it does.
  have first (tail : List Char)
      : ":directory:".toList.isPrefixOf (':' :: (bundleId.toList ++ ':' :: tail)) = false := by
    by_contra starts
    rw [Bool.not_eq_false, List.isPrefixOf_iff_prefix] at starts
    obtain ⟨rest, same⟩ := starts
    have named : bundleId.toList ++ ':' :: tail = "directory".toList ++ ':' :: rest := by
      simpa using same.symm
    have cut := congrArg (List.takeWhile (· ≠ ':')) named
    have ordinary : ∀ character ∈ bundleId.toList, decide (character ≠ ':') = true :=
      fun character inside => decide_eq_true (fun same => plain (same ▸ inside))
    have ordinary' : ∀ character ∈ "directory".toList, decide (character ≠ ':') = true :=
      List.all_eq_true.mp (by decide)
    rw [List.takeWhile_append_of_pos ordinary, List.takeWhile_append_of_pos ordinary'] at cut
    simp only [List.takeWhile_cons, decide_not, decide_true, Bool.not_true, Bool.false_eq_true,
      if_false, ne_eq, List.append_nil] at cut
    exact other (String.toList_injective cut)
  have split (tail : String)
      : (splitOnceAt ":directory:" ("bundle:" ++ bundleId ++ ":directory:" ++ tail)).map Prod.snd
        = some tail := by
    have spelled
        : ("bundle:" ++ bundleId ++ ":directory:" ++ tail).toList
          = "bundle".toList
            ++ ':' :: (bundleId.toList ++ ':' :: ("directory:".toList ++ tail.toList)) := by
      simp
    have start
        : ":directory:".toList.isPrefixOf (':' :: ("directory:".toList ++ tail.toList))
          = true := by
      rw [List.isPrefixOf_iff_prefix]
      exact ⟨tail.toList, rfl⟩
    rw [splitOnceAt, spelled, splitOnceAt_skip (by decide), splitOnceAt.go, first,
      if_neg Bool.false_ne_true, splitOnceAt_skip plain, splitOnceAt.go, if_pos start,
      Option.map_some]
    refine congrArg some (String.toList_injective ?_)
    rw [String.toList_ofList]
    rfl
  have root : "bundle:" ++ bundleId ++ ":directory:/"
      = "bundle:" ++ bundleId ++ ":directory:" ++ "/" := by
    simp [← String.toList_inj]
  rw [directoryRouteId, directoryPathFromRoute]
  split
  · next empty =>
      obtain ⟨⟨lead, tail⟩, found, rfl⟩ := Option.map_eq_some_iff.mp (split "/")
      rw [root, found, empty]
      rfl
  · obtain ⟨⟨lead, tail⟩, found, rfl⟩ := Option.map_eq_some_iff.mp (split path)
    rw [found]
    exact congrArg some (if_neg named)

theorem directoryPathFromRoute_guides
    : directoryPathFromRoute (directoryRouteId "docs" "guides") = some "guides" :=
  directoryPathFromRoute_route (by decide) (by decide) (by decide)

-----------------------------------------------------------------------------------------
-- Resolved links
-----------------------------------------------------------------------------------------

/-- The resolution of a link on the page of a concept. -/
def linkResolution (libraries : TextLibraries) (source : SourceBundle) (concept : Concept)
    (parsed : ParsedLink)
    : LinkResolution :=
  let index := source.linkIndex libraries
  resolveLink libraries index concept.id (parentDirectory concept.sourcePath)
    ((index.conceptFragments.get? concept.id).getD .empty) parsed

theorem compileLink_congr {first second : Concept} (same : first.id = second.id)
    (parsed : ParsedLink) (resolution : LinkResolution)
    : (compileLink first parsed resolution).link = (compileLink second parsed resolution).link := by
  cases resolution <;> simp [compileLink, same]

/-- The links of a compiled concept are those of its page, each with its resolution. -/
theorem compiled_outboundLinks {source : SourceBundle} {concept : Concept}
    (inside : concept ∈ (compileBundle libraries source).concepts) (link : Link)
    : link ∈ concept.outboundLinks
      ↔ ∃ parsed ∈ (parseMarkdown libraries concept.bodyMarkdown).links,
          (compileLink concept parsed (linkResolution libraries source concept parsed)).link
          = link := by
  obtain ⟨origin, member, waiting, rfl⟩ := origin_of_mem_concepts inside
  have holds := draftInvariant_ofDocuments libraries source
  rw [mem_outboundLinks_linked (holds.unlinked origin member), compiled_bodyMarkdown]
  simp only [compiledLinks, holds.parsed origin member, Option.getD_some, List.mem_map,
    exists_exists_and_eq_and]
  refine exists_congr (fun parsed => and_congr_right (fun _ => ?_))
  simp only [linkResolution, compiled_id, compiled_sourcePath]
  rw [compileLink_congr (compiled_id _ _ _ origin).symm]

section Sound

variable {source : SourceBundle} {concept : Concept} {href : String}

end Sound

/-- A reader of pages whose lines are headings or links. -/
def linkPages : TextLibraries where
  markdownEvents body :=
    (lines body).flatMap (fun line =>
      match stripPrefix line "# " with
      | some text => [(.startHeading 1, 0), (.text text, 0), (.endHeading, 0)]
      | none => [(.startLink line, 0), (.text line, 0), (.endLink, 0)])
  toLowercase character := [character.toLower]
  toUppercase character := [character.toUpper]
  lowercaseText := String.toLower
  isAlphanumeric := Char.isAlphanum

end CodebaseGraph.Wiki
