import CodebaseGraph.Wiki.Compiler
import CodebaseGraph.Wiki.Memory

/-! Pages as text: how front matter is read from them (`crates/k-wiki/src/bundle/mod.rs`). The YAML
library is a parameter.
-/

namespace CodebaseGraph.Wiki

open CodebaseGraph.Collections

-- Libraries

structure YamlLibrary (Yaml : Type) where
  string : String → Yaml
  sequence : List Yaml → Yaml
  asStr : Yaml → Option String
  asSequence : Yaml → Option (List Yaml)
  /-- The text of a mapping, which ends with a line break. -/
  toText : SortedMap String Yaml → Option String
  /-- A text as a map from strings, or what is wrong with it. -/
  fromText : String → Except String (SortedMap String Yaml)
  /-- A text as a mapping with any keys. -/
  mapping : String → Option (List (Yaml × Yaml))
  toJson : Yaml → Option Syntax.Value
  ofJson : Syntax.Value → Option Yaml
  encodeMetadata : AgentMemoryMetadata → Except String Yaml
  decodeMetadata : Syntax.Value → Option AgentMemoryMetadata

-- Front matter

/-- The lines of a text with the line breaks that end them. -/
def brokenLines : List Char → List (List Char)
  | [] => []
  | character :: rest =>
      if character = '\n' then [character] :: brokenLines rest
      else
        match brokenLines rest with
        | [] => [[character]]
        | line :: others => (character :: line) :: others

/-- A line that is `---` but for the carriage returns before its end. -/
def isDelimiter (line : List Char) : Bool :=
  ((line.rdropWhile (· = '\n')).rdropWhile (· = '\r')) = ['-', '-', '-']

structure SplitFrontmatter where
  frontmatter : Option String
  body : String
  missingClosingDelimiter : Bool
deriving DecidableEq, Repr

def splitFrontmatter (content : String) : SplitFrontmatter :=
  match brokenLines content.toList with
  | first :: rest =>
      if isDelimiter first then
        let frontmatter := String.ofList (rest.takeWhile (fun line => !isDelimiter line)).flatten
        match rest.dropWhile (fun line => !isDelimiter line) with
        | _ :: body =>
            {
              frontmatter := some frontmatter,
              body := String.ofList body.flatten,
              missingClosingDelimiter := false
            }
        | [] => { frontmatter := some frontmatter, body := "", missingClosingDelimiter := true }
      else { frontmatter := none, body := content, missingClosingDelimiter := false }
  | [] => { frontmatter := none, body := content, missingClosingDelimiter := false }

section Functions

variable {Yaml : Type} (yaml : YamlLibrary Yaml)

-- Reading a page

/-- A trimmed text that is not empty. -/
def parseOptionalString (value : Yaml) : Option String :=
  ((yaml.asStr value).map trim).filter (fun text => text ≠ "")

def parseTags (value : Yaml) : List String :=
  match yaml.asStr value with
  | some text => [trim text]
  | none => ((yaml.asSequence value).getD []).filterMap (parseOptionalString yaml)

/-- One entry of the front matter, read into the document. -/
def readEntry (document : SourceDocument) (entry : Yaml × Yaml) : SourceDocument :=
  match yaml.asStr entry.1 with
  | none => document
  | some "type" => { document with conceptType := parseOptionalString yaml entry.2 }
  | some "title" => { document with title := parseOptionalString yaml entry.2 }
  | some "description" => { document with description := parseOptionalString yaml entry.2 }
  | some "resource" => { document with resource := parseOptionalString yaml entry.2 }
  | some "timestamp" => { document with timestamp := parseOptionalString yaml entry.2 }
  | some "okf_version" => document
  | some "tags" => { document with tags := parseTags yaml entry.2 }
  | some key =>
      match yaml.toJson entry.2 with
      | some value => { document with extensions := document.extensions.insert key value }
      | none => document

def rootIndexPath : String := "index.md"

def classifyEntry (sourcePath : String) : SourceDocumentKind :=
  if endsWith sourcePath "/index.md" || sourcePath = rootIndexPath then .index
  else if endsWith sourcePath "/log.md" || sourcePath = "log.md" then .log
  else .concept

/-- The document that the loader makes of a page. -/
def parseMarkdownEntry (sourcePath content : String) : SourceDocument :=
  let split := splitFrontmatter content
  let document : SourceDocument :=
    { path := sourcePath, kind := classifyEntry sourcePath, bodyMarkdown := split.body }
  if split.missingClosingDelimiter then document
  else
    match split.frontmatter.bind yaml.mapping with
    | some entries => entries.foldl (readEntry yaml) document
    | none => document

end Functions

end CodebaseGraph.Wiki
