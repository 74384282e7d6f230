import CodebaseGraph.Daemon.Readers
import CodebaseGraph.Daemon.SystemdWords
import CodebaseGraph.Wiki.Render.Routes

/-! The manifests with which the daemon is registered as a service
(`src/adapters/mcp/daemon.rs`), and how service managers read the command to start from them.
Paths are kept as the text they display.
-/

namespace CodebaseGraph.Daemon

open CodebaseGraph.Wiki CodebaseGraph.Wiki.Render

structure McpDaemonSpec where
  configPath : String
  port : Nat
  repositoryFingerprint : String
  serviceId : String
  executable : String

def McpDaemonSpec.launchArgs (spec : McpDaemonSpec) : List String :=
  ["mcp", "daemon", "serve", "--config", spec.configPath, "--port", toString spec.port]

def McpDaemonSpec.command (spec : McpDaemonSpec) : List String := spec.executable :: spec.launchArgs

-- Quoting

def xmlEscape (value : String) : String :=
  replaceCharacter '\'' "&apos;"
    (replaceCharacter '"' "&quot;"
      (replaceCharacter '>' "&gt;" (replaceCharacter '<' "&lt;" (replaceCharacter '&' "&amp;" value))))

def systemdQuote (value : String) : String :=
  "\"" ++ replaceCharacter '"' "\\\"" (replaceCharacter '\\' "\\\\" value) ++ "\""

def windowsQuote (value : String) : String := "\"" ++ replaceCharacter '"' "\\\"" value ++ "\""

-- Manifests

def plistDeclaration : String :=
  "<?xml version=\"1.0\" encoding=\"UTF-8\"?>\n<!DOCTYPE plist PUBLIC \"-//Apple//DTD PLIST 1.0//EN\" "

def plistDoctype : String :=
  "\"http://www.apple.com/DTDs/PropertyList-1.0.dtd\">\n<plist version=\"1.0\">\n<dict>\n  "

def launchdLabel : String := "<key>Label</key><string>"

def launchdHead : String := plistDeclaration ++ plistDoctype ++ launchdLabel

def launchdArguments : String := "</string>\n  <key>ProgramArguments</key>\n  <array>\n"

def launchdSocket : String :=
  "  <key>RunAtLoad</key><true/>\n  <key>ProcessType</key><string>Background</string>\n"
  ++ "  <key>KeepAlive</key><true/>\n  <key>ThrottleInterval</key><integer>10</integer>\n"
  ++ "  <key>Sockets</key>\n  <dict>\n    <key>mcp-http</key>\n    <dict>\n"
  ++ "      <key>SockNodeName</key><string>127.0.0.1</string>\n"
  ++ "      <key>SockServiceName</key><integer>"

def launchdArrayEnd : String := "\n  </array>\n"

def launchdTail : String :=
  "</integer>\n      <key>SockFamily</key><string>IPv4</string>\n"
  ++ "      <key>SockType</key><string>stream</string>\n      <key>SockProtocol</key>"
  ++ "<string>TCP</string>\n    </dict>\n  </dict>\n</dict>\n</plist>\n"

def launchdString (argument : String) : String := "    <string>" ++ xmlEscape argument ++ "</string>"

def renderLaunchd (spec : McpDaemonSpec) : String :=
  launchdHead ++ xmlEscape spec.serviceId ++ launchdArguments
  ++ joinWith '\n' (spec.command.map launchdString)
  ++ launchdArrayEnd ++ launchdSocket ++ toString spec.port ++ launchdTail

def systemdHead : String := "[Unit]\nDescription=CodebaseGraph MCP daemon for "

def systemdService : String := "\n\n[Service]\nType=simple\nExecStart="

def systemdTail : String :=
  "\nRestart=always\nRestartSec=10\nTimeoutStopSec=5s\nKillMode=control-group\n\n[Install]\n"
  ++ "WantedBy=default.target\n"

def renderSystemd (spec : McpDaemonSpec) : String :=
  systemdHead ++ spec.repositoryFingerprint ++ systemdService
  ++ joinWith ' ' (spec.command.map systemdQuote) ++ systemdTail

def taskDeclaration : String :=
  "<?xml version=\"1.0\" encoding=\"UTF-16\"?>\n<Task version=\"1.4\" "

def taskSchema : String := "xmlns=\"http://schemas.microsoft.com/windows/2004/02/mit/task\">\n  "

def taskInstances : String :=
  "<Settings><MultipleInstancesPolicy>IgnoreNew</MultipleInstancesPolicy><RestartOnFailure>"

def taskRestart : String :=
  "<Interval>PT1M</Interval><Count>255</Count></RestartOnFailure></Settings>\n  "

def taskTriggers : String :=
  "<Triggers><LogonTrigger><Enabled>true</Enabled></LogonTrigger></Triggers>\n  "

def taskCommand : String := "<Actions Context=\"Author\"><Exec><Command>"

def taskHead : String :=
  taskDeclaration ++ taskSchema ++ taskInstances ++ taskRestart ++ taskTriggers ++ taskCommand

def taskArguments : String := "</Command><Arguments>"

def taskTail : String := "</Arguments></Exec></Actions>\n</Task>\n"

def renderTaskScheduler (spec : McpDaemonSpec) : String :=
  taskHead ++ xmlEscape spec.executable ++ taskArguments
  ++ xmlEscape (joinWith ' ' (spec.launchArgs.map windowsQuote)) ++ taskTail

-- Service managers

def texts (arguments : List (List Char)) : List String := arguments.map String.ofList

/-- The strings of an array of program arguments. -/
def programArguments (tokens : List XmlToken) : List (List Char) :=
  ((tokens.takeWhile (fun token => token.tag ≠ "/array".toList)).filter
    (fun token => token.tag = "string".toList)).map XmlToken.content

/-- What launchd starts: the array that follows its key. -/
def launchdStarts (manifest : String) : Option (List String) :=
  let fromKey :=
    (xmlTokens manifest.toList).dropWhile
      (fun token => token ≠ ⟨"key".toList, "ProgramArguments".toList⟩)
  ((programArguments fromKey).mapM xmlUnescape).map texts

/-- What systemd starts: the arguments of the first line that sets a command. -/
def systemdStarts (host : SystemdHost) (manifest : String) : Option (List String) :=
  let key := "ExecStart=".toList
  let line := (manifest.toList.splitOn '\n').find? (fun line => key.isPrefixOf line)
  (line.bind (fun line => systemdArguments host (line.drop key.length))).map texts

/-- What the task scheduler starts: a command, and the arguments split from another element. -/
def taskSchedulerStarts (manifest : String) : Option (List String) := do
  let tokens := xmlTokens manifest.toList
  let command ← tokens.find? (fun token => token.tag = "Command".toList)
  let arguments ← tokens.find? (fun token => token.tag = "Arguments".toList)
  let program ← xmlUnescape command.content
  let line ← xmlUnescape arguments.content
  return texts (program :: commandLineToArgv line)

end CodebaseGraph.Daemon

/-! What service managers read from the manifests: launchd the configured command, systemd its
literal words, and the task scheduler its arguments unless one ends in a backslash.
-/

namespace CodebaseGraph.Daemon

open CodebaseGraph.Wiki CodebaseGraph.Wiki.Render

-- Quoted texts

theorem toList_replaceCharacter (old : Char) (new text : String)
    : (replaceCharacter old new text).toList
      = text.toList.flatMap
          (fun character => if character = old then new.toList else [character]) := by
  rw [replaceCharacter, String.toList_ofList]

theorem toList_xmlEscape (value : String)
    : (xmlEscape value).toList = value.toList.flatMap xmlEscapeCharacter := by
  simp only [xmlEscape, toList_replaceCharacter, List.flatMap_assoc]
  congr 1
  funext character
  unfold xmlEscapeCharacter
  by_cases amp : character = '&'
  · subst amp
    rfl
  · by_cases less : character = '<'
    · subst less
      rfl
    · by_cases greater : character = '>'
      · subst greater
        rfl
      · by_cases quote : character = '"'
        · subst quote
          rfl
        · simp only [amp, less, greater, quote, if_false, List.flatMap_cons, List.flatMap_nil,
            List.append_nil]
          rfl

theorem toList_systemdQuote (value : String)
    : (systemdQuote value).toList = systemdQuoted value.toList := by
  have escaped : (replaceCharacter '"' "\\\"" (replaceCharacter '\\' "\\\\" value)).toList
      = value.toList.flatMap systemdEscapeCharacter := by
    simp only [toList_replaceCharacter, List.flatMap_assoc]
    congr 1
    funext character
    unfold systemdEscapeCharacter
    by_cases slash : character = '\\'
    · subst slash
      rfl
    · simp only [slash, if_false, List.flatMap_cons, List.flatMap_nil, List.append_nil]
      rfl
  rw [systemdQuote, String.toList_append, String.toList_append, escaped]
  rfl

theorem toList_windowsQuote {value : String} (plain : '"' ∉ value.toList)
    : (windowsQuote value).toList = '"' :: (value.toList ++ ['"']) := by
  have kept : (replaceCharacter '"' "\\\"" value).toList = value.toList := by
    rw [toList_replaceCharacter]
    have single : value.toList.flatMap
          (fun character => if character = '"' then "\\\"".toList else [character])
        = value.toList.flatMap (fun character => [character]) := by
      apply List.flatMap_congr
      intro character inside
      have other : character ≠ '"' := fun same => plain (same ▸ inside)
      exact if_neg other
    rw [single]
    simp
  rw [windowsQuote, String.toList_append, String.toList_append, kept]
  rfl

/-- Joining texts, as a list of characters. -/
theorem toList_joinWith_cons (separator : Char) (text next : String) (rest : List String)
    : (joinWith separator (text :: next :: rest)).toList
      = text.toList ++ separator :: (joinWith separator (next :: rest)).toList := by
  simp only [joinWith, String.toList_ofList, List.map_cons, List.intercalate_cons_cons]
  simp

theorem toList_joinWith_singleton (separator : Char) (text : String)
    : (joinWith separator [text]).toList = text.toList := by
  simp [joinWith]

theorem toList_systemdLine (words : List String)
    : (joinWith ' ' (words.map systemdQuote)).toList = systemdLine (words.map String.toList) := by
  induction words with
  | nil => rfl
  | cons word rest ih =>
      cases rest with
      | nil => rw [List.map_singleton, toList_joinWith_singleton, toList_systemdQuote]; rfl
      | cons next rest =>
          rw [List.map_cons, List.map_cons, toList_joinWith_cons, toList_systemdQuote,
            ← List.map_cons, ih]
          rfl

theorem toList_quotedLine (words : List String) (plain : ∀ word ∈ words, '"' ∉ word.toList)
    : (joinWith ' ' (words.map windowsQuote)).toList = quotedLine (words.map String.toList) := by
  induction words with
  | nil => rfl
  | cons word rest ih =>
      obtain ⟨plainWord, plainRest⟩ := List.forall_mem_cons.mp plain
      cases rest with
      | nil =>
          rw [List.map_singleton, toList_joinWith_singleton, toList_windowsQuote plainWord]
          rfl
      | cons next rest =>
          rw [List.map_cons, List.map_cons, toList_joinWith_cons, toList_windowsQuote plainWord,
            ← List.map_cons, ih plainRest]
          simp [quotedLine]

theorem texts_toList (arguments : List String) : texts (arguments.map String.toList) = arguments := by
  simp [texts]

-- systemd

/-- Lines up to a line end. -/
theorem splitOn_append (first second : List Char)
    : (first ++ '\n' :: second).splitOn '\n' = first.splitOn '\n' ++ second.splitOn '\n' :=
  List.splitOnP_append_cons first second (by decide)

theorem splitOn_line {line : List Char} (single : '\n' ∉ line) : line.splitOn '\n' = [line] := by
  apply List.splitOnP_eq_singleton
  intro character inside
  have other : character ≠ '\n' := fun same => single (same ▸ inside)
  simpa using other

def execStart : List Char := "ExecStart=".toList

def isExecStart (line : List Char) : Bool := execStart.isPrefixOf line

/-- The line of the command is found after all others that could set one. -/
theorem find_execStart {fingerprint command : List Char} (single : '\n' ∉ fingerprint)
    (line : '\n' ∉ command)
    : ((systemdHead.toList ++ fingerprint ++ systemdService.toList ++ command
          ++ systemdTail.toList).splitOn '\n').find? isExecStart
      = some (execStart ++ command) := by
  have head : systemdHead.toList
      = "[Unit]".toList ++ '\n' :: "Description=CodebaseGraph MCP daemon for ".toList := by
    decide
  have service : systemdService.toList
      = '\n' :: ("\n[Service]\nType=simple".toList ++ '\n' :: execStart) := by
    decide
  have tail : systemdTail.toList = '\n' :: systemdTail.toList.tail := by decide
  have whole : systemdHead.toList ++ fingerprint ++ systemdService.toList ++ command
        ++ systemdTail.toList
      = "[Unit]".toList ++ '\n' ::
          (("Description=CodebaseGraph MCP daemon for ".toList ++ fingerprint) ++ '\n' ::
            ("\n[Service]\nType=simple".toList ++ '\n' ::
              ((execStart ++ command) ++ '\n' :: systemdTail.toList.tail))) := by
    rw [head, service, tail]
    simp only [List.append_assoc, List.cons_append, List.tail_cons]
  have described : '\n' ∉ "Description=CodebaseGraph MCP daemon for ".toList ++ fingerprint := by
    rw [List.mem_append, not_or]
    exact ⟨by decide, single⟩
  have started : '\n' ∉ execStart ++ command := by
    rw [List.mem_append, not_or]
    exact ⟨by decide, line⟩
  have unit : ("[Unit]".toList.splitOn '\n').find? isExecStart = none := by decide
  have middle : ("\n[Service]\nType=simple".toList.splitOn '\n').find? isExecStart = none := by
    decide
  have description : isExecStart
      ("Description=CodebaseGraph MCP daemon for ".toList ++ fingerprint) = false := by
    rfl
  have found : isExecStart (execStart ++ command) = true :=
    List.isPrefixOf_iff_prefix.mpr (List.prefix_append _ _)
  rw [whole, splitOn_append, splitOn_append, splitOn_append, splitOn_append,
    splitOn_line described, splitOn_line started]
  simp only [List.find?_append, unit, middle, List.find?_singleton, description, found,
    Option.none_or, Bool.false_eq_true, if_false, if_true, Option.some_or]

theorem systemdEscape_single {text : List Char} (single : '\n' ∉ text)
    : '\n' ∉ systemdQuoted text := by
  intro found
  rcases List.mem_cons.mp found with same | found
  · cases same
  · rcases List.mem_append.mp found with inside | last
    · obtain ⟨character, present, escaped⟩ := List.mem_flatMap.mp inside
      unfold systemdEscapeCharacter at escaped
      split at escaped
      · simp at escaped
      · split at escaped
        · simp at escaped
        · exact single (List.mem_singleton.mp escaped ▸ present)
    · simp at last

theorem systemdLine_single {words : List (List Char)} (single : ∀ word ∈ words, '\n' ∉ word)
    : '\n' ∉ systemdLine words := by
  induction words with
  | nil => simp [systemdLine]
  | cons word rest ih =>
      obtain ⟨first, others⟩ := List.forall_mem_cons.mp single
      have quoted := systemdEscape_single first
      cases rest with
      | nil => exact quoted
      | cons next rest =>
          have further := ih others
          simp only [systemdLine, List.mem_append, List.mem_cons]
          rintro (inside | space | inside)
          · exact quoted inside
          · cases space
          · exact further inside

/-- systemd reads the words of the command. -/
theorem systemdStarts_render (host : SystemdHost) (spec : McpDaemonSpec)
    (fingerprint : '\n' ∉ spec.repositoryFingerprint.toList)
    (words : ∀ word ∈ spec.command, '\n' ∉ word.toList)
    : systemdStarts host (renderSystemd spec)
      = (systemdArguments host (systemdLine (spec.command.map String.toList))).map texts := by
  have single : '\n' ∉ systemdLine (spec.command.map String.toList) :=
    systemdLine_single (List.forall_mem_map.mpr words)
  have manifest : (renderSystemd spec).toList
      = systemdHead.toList ++ spec.repositoryFingerprint.toList ++ systemdService.toList
        ++ systemdLine (spec.command.map String.toList) ++ systemdTail.toList := by
    rw [renderSystemd, String.toList_append, String.toList_append, String.toList_append,
      String.toList_append, toList_systemdLine]
  have line := find_execStart fingerprint single
  rw [← manifest] at line
  have rest : (execStart ++ systemdLine (spec.command.map String.toList)).drop execStart.length
      = systemdLine (spec.command.map String.toList) :=
    List.drop_left
  have found : ((renderSystemd spec).toList.splitOn '\n').find?
        (fun line => "ExecStart=".toList.isPrefixOf line)
      = some (execStart ++ systemdLine (spec.command.map String.toList)) := line
  rw [systemdStarts, found, Option.bind_some]
  exact congrArg (fun command => (systemdArguments host command).map texts) rest

-----------------------------------------------------------------------------------------
-- XML
-----------------------------------------------------------------------------------------

/-- Text before a bracket has no tags of its own. -/
theorem xmlTokens_skip {text : List Char} (rest : List Char) (plain : '<' ∉ text)
    : xmlTokens (text ++ '<' :: rest) = xmlTokens ('<' :: rest) := by
  rw [xmlTokens_append, xmlTokens_text plain, List.nil_append]

/-- An element with text, up to the bracket that follows. -/
theorem xmlTokens_element_append {tag content : List Char} (rest : List Char) (name : '<' ∉ tag)
    (closed : '>' ∉ tag) (plain : '<' ∉ content)
    : xmlTokens ('<' :: (tag ++ '>' :: (content ++ '<' :: rest)))
      = ⟨tag, content⟩ :: xmlTokens ('<' :: rest) := by
  have layout : '<' :: (tag ++ '>' :: (content ++ '<' :: rest))
      = ('<' :: (tag ++ '>' :: content)) ++ '<' :: rest := by
    simp
  rw [layout, xmlTokens_append, xmlTokens_element name closed plain]
  rfl

theorem xmlEscape_no_tag (value : String) : '<' ∉ (xmlEscape value).toList := by
  rw [toList_xmlEscape]
  exact escaped_no_tag value.toList

theorem xmlUnescape_xmlEscape (value : String)
    : xmlUnescape (xmlEscape value).toList = some value.toList := by
  rw [toList_xmlEscape, xmlUnescape_escaped]

def stringTag : List Char := "string".toList

def stringEnd : List Char := "/string".toList

def arrayEnd : List Char := "/array".toList

/-- After the last of the strings, their array ends. -/
theorem launchdArrayEnd_layout
    : launchdArrayEnd.toList = ['\n', ' ', ' '] ++ '<' :: (arrayEnd ++ ['>', '\n']) := by
  decide

theorem programArguments_string (content : List Char) (tokens : List XmlToken)
    : programArguments (⟨stringTag, content⟩ :: tokens) = content :: programArguments tokens := by
  have opened : decide (stringTag ≠ "/array".toList) = true := by decide
  have kept : decide (stringTag = "string".toList) = true := by decide
  simp only [programArguments, List.takeWhile_cons, opened, if_true, List.filter_cons, kept,
    List.map_cons]

/-- A tag that is neither a string nor the end of the array. -/
theorem programArguments_other {token : XmlToken} (tokens : List XmlToken)
    (inside : token.tag ≠ "/array".toList) (other : token.tag ≠ "string".toList)
    : programArguments (token :: tokens) = programArguments tokens := by
  simp only [programArguments, List.takeWhile_cons, inside, ne_eq, not_false_eq_true, decide_true,
    if_true, List.filter_cons, other, decide_false, Bool.false_eq_true, if_false]

theorem programArguments_stringEnd (content : List Char) (tokens : List XmlToken)
    : programArguments (⟨stringEnd, content⟩ :: tokens) = programArguments tokens :=
  have inside : stringEnd ≠ "/array".toList := by decide
  have other : stringEnd ≠ "string".toList := by decide
  programArguments_other tokens inside other

theorem programArguments_arrayEnd (content : List Char) (tokens : List XmlToken)
    : programArguments (⟨arrayEnd, content⟩ :: tokens) = [] := by
  have ended : decide (arrayEnd ≠ "/array".toList) = false := by decide
  simp only [programArguments, List.takeWhile_cons, ended, Bool.false_eq_true, if_false,
    List.filter_nil, List.map_nil]

theorem toList_launchdString (argument : String)
    : (launchdString argument).toList
      = ' ' :: ' ' :: ' ' :: ' ' :: '<' :: (stringTag ++ '>' :: ((xmlEscape argument).toList
          ++ '<' :: (stringEnd ++ ['>']))) := by
  have opened : "    <string>".toList
      = ' ' :: ' ' :: ' ' :: ' ' :: '<' :: (stringTag ++ ['>']) := by
    decide
  have closed : "</string>".toList = '<' :: (stringEnd ++ ['>']) := by decide
  rw [launchdString, String.toList_append, String.toList_append, opened, closed]
  simp

theorem launchdString_begins (argument : String)
    : ∃ begun, (launchdString argument).toList = [' ', ' ', ' ', ' '] ++ '<' :: begun :=
  ⟨_, toList_launchdString argument⟩

theorem launchdStrings_begin (argument : String) (others : List String) (rest : List Char)
    : ∃ inner,
        (joinWith '\n' ((argument :: others).map launchdString)).toList ++ rest
          = [' ', ' ', ' ', ' '] ++ '<' :: inner := by
  obtain ⟨begun, first⟩ := launchdString_begins argument
  cases others with
  | nil =>
      refine ⟨begun ++ rest, ?_⟩
      rw [List.map_singleton, toList_joinWith_singleton, first, List.append_assoc]
      rfl
  | cons next others =>
      refine ⟨begun ++ ('\n' :: (joinWith '\n' ((next :: others).map launchdString)).toList ++ rest),
        ?_⟩
      rw [List.map_cons, List.map_cons, toList_joinWith_cons, first, ← List.map_cons]
      simp only [List.append_assoc, List.cons_append]

/-- The first tag of a text that begins with one. -/
theorem xmlTokens_tag (tag rest : List Char) (name : '<' ∉ tag) (closed : '>' ∉ tag)
    : ∃ content tokens,
        xmlTokens ('<' :: (tag ++ '>' :: rest)) = ⟨tag, content⟩ :: tokens := by
  have inPiece : ∀ character ∈ tag, decide (character ≠ '<') = true :=
    fun character found => decide_eq_true (fun same => name (same ▸ found))
  have inTag : ∀ character ∈ tag, decide (character ≠ '>') = true :=
    fun character found => decide_eq_true (fun same => closed (same ▸ found))
  have piece : (tag ++ '>' :: rest).takeWhile (· ≠ '<')
      = tag ++ '>' :: rest.takeWhile (· ≠ '<') := by
    rw [List.takeWhile_append_of_pos inPiece, List.takeWhile_cons, if_pos (by decide)]
  have first : (xmlToken (tag ++ '>' :: rest)).tag = tag := by
    rw [xmlToken]
    dsimp only
    rw [piece, List.takeWhile_append_of_pos inTag, List.takeWhile_cons, if_neg (by decide),
      List.append_nil]
  refine ⟨(xmlToken (tag ++ '>' :: rest)).content, xmlTokens (tag ++ '>' :: rest), ?_⟩
  rw [xmlTokens, if_pos rfl]
  exact congrArg (· :: xmlTokens (tag ++ '>' :: rest)) (congrArg (XmlToken.mk · _) first)

/-- One string of the array, with the white space after it. -/
theorem xmlTokens_launchdString (argument : String) {space : List Char} (rest : List Char)
    (blank : '<' ∉ space)
    : xmlTokens ((launchdString argument).toList ++ (space ++ '<' :: rest))
      = ⟨stringTag, (xmlEscape argument).toList⟩ :: ⟨stringEnd, space⟩ :: xmlTokens ('<' :: rest) := by
  have layout : (launchdString argument).toList ++ (space ++ '<' :: rest)
      = [' ', ' ', ' ', ' '] ++ '<' :: (stringTag ++ '>' :: ((xmlEscape argument).toList
          ++ '<' :: (stringEnd ++ '>' :: (space ++ '<' :: rest)))) := by
    rw [toList_launchdString]
    simp
  rw [layout, xmlTokens_skip _ (by decide),
    xmlTokens_element_append _ (by decide) (by decide) (xmlEscape_no_tag argument),
    xmlTokens_element_append _ (by decide) (by decide) blank]

/-- The strings of the array are the escaped arguments, by induction on them. -/
theorem programArguments_strings (argument : String) (others : List String) (rest : List Char)
    : programArguments
        (xmlTokens
          ((joinWith '\n' ((argument :: others).map launchdString)).toList
            ++ (launchdArrayEnd.toList ++ rest)))
      = (argument :: others).map (fun argument => (xmlEscape argument).toList) := by
  induction others generalizing argument with
  | nil =>
      have layout : launchdArrayEnd.toList ++ rest
          = ['\n', ' ', ' '] ++ '<' :: (arrayEnd ++ '>' :: '\n' :: rest) := by
        rw [launchdArrayEnd_layout]
        simp
      obtain ⟨content, tokens, ended⟩ :=
        xmlTokens_tag arrayEnd ('\n' :: rest) (by decide) (by decide)
      rw [List.map_singleton, toList_joinWith_singleton, layout,
        xmlTokens_launchdString argument _ (by decide), ended, programArguments_string,
        programArguments_stringEnd, programArguments_arrayEnd]
      rfl
  | cons next others ih =>
      obtain ⟨inner, layout⟩ := launchdStrings_begin next others (launchdArrayEnd.toList ++ rest)
      have further := ih next
      rw [layout, xmlTokens_skip _ (by decide)] at further
      have joined : (joinWith '\n' ((argument :: next :: others).map launchdString)).toList
            ++ (launchdArrayEnd.toList ++ rest)
          = (launchdString argument).toList ++ (['\n', ' ', ' ', ' ', ' '] ++ '<' :: inner) := by
        rw [List.map_cons, List.map_cons, toList_joinWith_cons, ← List.map_cons, List.append_assoc,
          List.cons_append, layout]
        rfl
      rw [joined, xmlTokens_launchdString argument _ (by decide), programArguments_string,
        programArguments_stringEnd, further]
      rfl

theorem mapM_xmlUnescape (arguments : List String)
    : (arguments.map (fun argument => (xmlEscape argument).toList)).mapM xmlUnescape
      = some (arguments.map String.toList) := by
  induction arguments with
  | nil => rfl
  | cons argument rest ih =>
      rw [List.map_cons, List.mapM_cons, xmlUnescape_xmlEscape, ih]
      rfl

end CodebaseGraph.Daemon
