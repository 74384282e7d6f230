import Mathlib.Data.Prod.Lex
import Mathlib.Data.String.Basic
import Mathlib.Order.WithBot
import CodebaseGraph.Collections.SortedMap
import CodebaseGraph.Sorting.Cursors
import CodebaseGraph.Syntax.Arena

/-! The normalised projection of a wiki (`crates/k-wiki/src/model.rs` and `diagnostic.rs`).
Vectors are put into one order, the derived one or that of a key, and freed of duplicates.
-/

namespace CodebaseGraph.Wiki

open CodebaseGraph.Collections CodebaseGraph.Sorting

/-- A missing value comes before every present one. -/
def absentFirst {α : Type} (value : Option α) : WithBot α := value

-- Diagnostics

inductive DiagnosticSeverity where
  | error
  | warning
  | info
deriving DecidableEq, Repr

def DiagnosticSeverity.rank : DiagnosticSeverity → Nat
  | .error => 0
  | .warning => 1
  | .info => 2

structure Diagnostic where
  severity : DiagnosticSeverity
  code : String
  sourcePath : String
  line : Option Nat
  message : String
deriving DecidableEq, Repr

def Diagnostic.warning (code sourcePath : String) (line : Option Nat) (message : String)
    : Diagnostic :=
  { severity := .warning, code, sourcePath, line, message }

-- Links

inductive LinkStatus where
  | resolved
  | broken
  | external
  | rejected
deriving DecidableEq, Repr

def LinkStatus.rank : LinkStatus → Nat
  | .resolved => 0
  | .broken => 1
  | .external => 2
  | .rejected => 3

structure Link where
  sourceId : String
  rawHref : String
  normalizedTargetId : Option String
  fragment : Option String
  status : LinkStatus
  context : Option String
deriving DecidableEq, Repr

/-- The derived order of a record compares its fields in turn. -/
abbrev LinkKey :=
  String ×ₗ String ×ₗ WithBot String ×ₗ WithBot String ×ₗ Nat ×ₗ WithBot String

def Link.key (link : Link) : LinkKey :=
  toLex
    (
      link.sourceId,
      toLex
        (
          link.rawHref,
          toLex
            (
              absentFirst link.normalizedTargetId,
              toLex
                (
                  absentFirst link.fragment,
                  toLex (link.status.rank, absentFirst link.context)
                )
            )
        )
    )

theorem LinkStatus.rank_injective : Function.Injective LinkStatus.rank := by
  intro first second same
  cases first <;> cases second <;> first | rfl | simp [LinkStatus.rank] at same

theorem Link.key_injective : Function.Injective Link.key := by
  intro first second same
  obtain ⟨source, href, target, fragment, status, context⟩ := first
  obtain ⟨source', href', target', fragment', status', context'⟩ := second
  simp only [Link.key, toLex_inj, Prod.mk.injEq] at same
  obtain ⟨sources, hrefs, targets, fragments, statuses, contexts⟩ := same
  obtain rfl : source = source' := sources
  obtain rfl : href = href' := hrefs
  obtain rfl : status = status' := LinkStatus.rank_injective statuses
  obtain rfl : target = target' := targets
  obtain rfl : fragment = fragment' := fragments
  obtain rfl : context = context' := contexts
  rfl

instance : LinearOrder Link := LinearOrder.lift' Link.key Link.key_injective

/-- `sort` followed by `dedup`. -/
def sortDedup {α : Type} [LinearOrder α] (list : List α) : List α := dedup (sortBy id list)

theorem mem_sortDedup {α : Type} [LinearOrder α] {list : List α} {item : α}
    : item ∈ sortDedup list ↔ item ∈ list := by
  rw [sortDedup, mem_dedup]
  exact (sortBy_perm id list).mem_iff

theorem sortDedup_nodup {α : Type} [LinearOrder α] (list : List α) : (sortDedup list).Nodup :=
  (dedup_increasing (sortBy_sorted id list)).imp ne_of_lt

-----------------------------------------------------------------------------------------
-- Concepts, directories and bundles
-----------------------------------------------------------------------------------------

structure Heading where
  level : Nat
  id : String
  text : String
deriving DecidableEq, Repr

structure Citation where
  number : Nat
  text : String
  href : Option String
deriving DecidableEq, Repr

structure LogEntry where
  scopePath : String
  date : String
  category : String
  text : String
  links : List String
deriving DecidableEq, Repr

structure Concept where
  id : String
  bundleId : String
  sourcePath : String
  conceptType : String
  title : Option String := none
  description : Option String := none
  resource : Option String := none
  tags : List String := []
  timestamp : Option String := none
  extensions : SortedMap String Syntax.Value := .empty
  bodyMarkdown : String
  headings : List Heading := []
  outboundLinks : List Link := []
  backlinks : List Link := []
  citations : List Citation := []

namespace Concept

def normalize (concept : Concept) : Concept :=
  {
    concept with
    tags := sortDedup concept.tags,
    headings :=
      sortBy (fun heading : Heading => toLex (heading.id, heading.level)) concept.headings,
    outboundLinks := sortDedup concept.outboundLinks,
    backlinks := sortDedup concept.backlinks,
    citations := sortBy Citation.number concept.citations
  }

def displayTitle (concept : Concept) : String := concept.title.getD concept.id

end Concept

inductive IndexSource where
  | authored
  | synthetic
deriving DecidableEq, Repr

structure Directory where
  path : String
  title : String
  description : Option String
  indexSource : IndexSource
  bodyMarkdown : String
  childDirectories : List String
  conceptIds : List String
  logEntries : List LogEntry
deriving DecidableEq, Repr

/-- The newest entries come first. -/
def LogEntry.key (entry : LogEntry) : Stringᵒᵈ ×ₗ String ×ₗ String ×ₗ String :=
  toLex
    (
      OrderDual.toDual entry.date,
      toLex (entry.scopePath, toLex (entry.category, entry.text))
    )

def Directory.normalize (directory : Directory) : Directory :=
  {
    directory with
    childDirectories := sortDedup directory.childDirectories,
    conceptIds := sortDedup directory.conceptIds,
    logEntries := sortBy LogEntry.key directory.logEntries
  }

structure Bundle where
  id : String
  rootPath : String
  okfVersion : String
  title : String
  sourceRevision : Option String
  directories : List Directory := []
  concepts : List Concept := []
  diagnostics : List Diagnostic := []

def Diagnostic.key (diagnostic : Diagnostic)
    : String ×ₗ WithBot Nat ×ₗ String ×ₗ Nat ×ₗ String :=
  toLex
    (
      diagnostic.sourcePath,
      toLex
        (
          absentFirst diagnostic.line,
          toLex (diagnostic.code, toLex (diagnostic.severity.rank, diagnostic.message))
        )
    )

def Bundle.normalize (bundle : Bundle) : Bundle :=
  {
    bundle with
    directories := (sortBy Directory.path bundle.directories).map Directory.normalize,
    concepts := (sortBy Concept.id bundle.concepts).map Concept.normalize,
    diagnostics := sortBy Diagnostic.key bundle.diagnostics
  }

theorem Bundle.mem_concepts_normalize {bundle : Bundle} {concept : Concept}
    : concept ∈ bundle.normalize.concepts
      ↔ ∃ draft ∈ bundle.concepts, draft.normalize = concept := by
  simp only [Bundle.normalize, List.mem_map, (sortBy_perm Concept.id bundle.concepts).mem_iff]

theorem Bundle.mem_directories_normalize {bundle : Bundle} {directory : Directory}
    : directory ∈ bundle.normalize.directories
      ↔ ∃ draft ∈ bundle.directories, draft.normalize = directory := by
  simp only [Bundle.normalize, List.mem_map,
    (sortBy_perm Directory.path bundle.directories).mem_iff]

theorem Bundle.mem_diagnostics_normalize {bundle : Bundle} {diagnostic : Diagnostic}
    : diagnostic ∈ bundle.normalize.diagnostics ↔ diagnostic ∈ bundle.diagnostics :=
  (sortBy_perm Diagnostic.key bundle.diagnostics).mem_iff

/-- Normalising a bundle rearranges its concepts without renaming them. -/
theorem Bundle.normalize_conceptIds (bundle : Bundle)
    : (bundle.normalize.concepts.map Concept.id).Perm (bundle.concepts.map Concept.id) := by
  simp only [Bundle.normalize, List.map_map]
  exact (sortBy_perm Concept.id bundle.concepts).map _

theorem Bundle.normalize_directoryPaths (bundle : Bundle)
    : (bundle.normalize.directories.map Directory.path).Perm
        (bundle.directories.map Directory.path) := by
  simp only [Bundle.normalize, List.map_map]
  exact (sortBy_perm Directory.path bundle.directories).map _

end CodebaseGraph.Wiki
