import CodebaseGraph.Daemon.Manifests

/-! When every service manager starts exactly the configured command. -/

namespace CodebaseGraph.Daemon

open CodebaseGraph.Wiki CodebaseGraph.Wiki.Render

-- launchd

def programArgumentsKey : XmlToken := ⟨"key".toList, "ProgramArguments".toList⟩

/-- The tags before the label of a service. -/
theorem launchdHead_layout
    : ∃ head,
        launchdHead.toList = head ++ '<' :: (stringTag ++ ['>'])
        ∧ ∀ token ∈ xmlTokens head, token ≠ programArgumentsKey :=
  ⟨plistDeclaration.toList ++ (plistDoctype.toList ++ "<key>Label</key>".toList), by
    have label : launchdLabel.toList = "<key>Label</key>".toList ++ '<' :: (stringTag ++ ['>']) := by
      decide
    rw [launchdHead, String.toList_append, String.toList_append, label]
    simp only [List.append_assoc], by decide⟩

theorem launchdArguments_layout
    : launchdArguments.toList
      = '<' :: (stringEnd ++ '>' :: ("\n  ".toList
        ++ '<' :: ("key".toList ++ '>' :: ("ProgramArguments".toList
        ++ '<' :: ("/key".toList ++ '>' :: ("\n  ".toList
        ++ '<' :: ("array".toList ++ '>' :: ['\n']))))))) := by
  decide

/-- The manifest from its key of program arguments on, whatever the label of the service. -/
theorem launchd_fromKey (label : List Char) (plain : '<' ∉ label) (rest : List Char)
    : (xmlTokens (launchdHead.toList ++ label ++ (launchdArguments.toList ++ rest))).dropWhile
          (fun token => token ≠ programArgumentsKey)
      = programArgumentsKey :: ⟨"/key".toList, "\n  ".toList⟩ ::
          xmlTokens ('<' :: ("array".toList ++ '>' :: '\n' :: rest)) := by
  obtain ⟨head, begins, others⟩ := launchdHead_layout
  have layout : launchdHead.toList ++ label ++ (launchdArguments.toList ++ rest)
      = head ++ '<' :: (stringTag ++ '>' :: (label
        ++ '<' :: (stringEnd ++ '>' :: ("\n  ".toList
        ++ '<' :: ("key".toList ++ '>' :: ("ProgramArguments".toList
        ++ '<' :: ("/key".toList ++ '>' :: ("\n  ".toList
        ++ '<' :: ("array".toList ++ '>' :: '\n' :: rest))))))))) := by
    rw [begins, launchdArguments_layout]
    simp only [List.append_assoc, List.cons_append, List.nil_append]
  have before : ∀ token ∈ xmlTokens head, decide (token ≠ programArgumentsKey) = true :=
    fun token found => decide_eq_true (others token found)
  have label_ : decide ((⟨stringTag, label⟩ : XmlToken) ≠ programArgumentsKey) = true := by
    apply decide_eq_true
    intro same
    have tags : stringTag = "key".toList := congrArg XmlToken.tag same
    exact absurd tags (by decide)
  have ended : decide ((⟨stringEnd, "\n  ".toList⟩ : XmlToken) ≠ programArgumentsKey) = true := by
    decide
  have found : decide (programArgumentsKey ≠ programArgumentsKey) = false := by simp
  rw [layout, xmlTokens_append, xmlTokens_element_append _ (by decide) (by decide)
    plain, xmlTokens_element_append _ (by decide) (by decide) (by decide),
    xmlTokens_element_append _ (by decide) (by decide) (by decide),
    xmlTokens_element_append _ (by decide) (by decide) (by decide),
    List.dropWhile_append_of_pos before, List.dropWhile_cons, if_pos label_, List.dropWhile_cons,
    if_pos ended]
  rw [List.dropWhile_cons_of_neg (by simp [programArgumentsKey])]
  rfl

/-- launchd always starts the configured command. -/
theorem launchdStarts_render (spec : McpDaemonSpec)
    : launchdStarts (renderLaunchd spec) = some spec.command := by
  obtain ⟨inner, layout⟩ := launchdStrings_begin spec.executable spec.launchArgs
    (launchdArrayEnd.toList
      ++ (launchdSocket.toList ++ ((toString spec.port).toList ++ launchdTail.toList)))
  have manifest : (renderLaunchd spec).toList
      = launchdHead.toList ++ (xmlEscape spec.serviceId).toList ++ (launchdArguments.toList
        ++ ((joinWith '\n' (spec.command.map launchdString)).toList
        ++ (launchdArrayEnd.toList
          ++ (launchdSocket.toList ++ ((toString spec.port).toList ++ launchdTail.toList))))) := by
    simp only [renderLaunchd, String.toList_append, List.append_assoc]
  have strings := programArguments_strings spec.executable spec.launchArgs
    (launchdSocket.toList ++ ((toString spec.port).toList ++ launchdTail.toList))
  rw [layout, xmlTokens_skip _ (by decide)] at strings
  have arrayTag : '<' :: ("array".toList ++ '>' :: '\n' :: ([' ', ' ', ' ', ' '] ++ '<' :: inner))
      = '<' :: ("array".toList ++ '>' :: ("\n    ".toList ++ '<' :: inner)) := by
    rfl
  have fromKey := launchd_fromKey (xmlEscape spec.serviceId).toList (xmlEscape_no_tag _)
    ((joinWith '\n' (spec.command.map launchdString)).toList
      ++ (launchdArrayEnd.toList
        ++ (launchdSocket.toList ++ ((toString spec.port).toList ++ launchdTail.toList))))
  have command : spec.command = spec.executable :: spec.launchArgs := rfl
  rw [← manifest, command, layout, arrayTag, xmlTokens_element_append _ (by decide)
    (by decide) (by decide)] at fromKey
  have read : programArguments
        ((xmlTokens (renderLaunchd spec).toList).dropWhile (fun token => token ≠ programArgumentsKey))
      = spec.command.map (fun argument => (xmlEscape argument).toList) := by
    rw [fromKey, programArguments_other _ (by decide) (by decide),
      programArguments_other _ (by decide) (by decide),
      programArguments_other _ (by decide) (by decide), strings]
    rfl
  have found : launchdStarts (renderLaunchd spec)
      = ((programArguments ((xmlTokens (renderLaunchd spec).toList).dropWhile
          (fun token => token ≠ programArgumentsKey))).mapM xmlUnescape).map texts := rfl
  rw [found, read, mapM_xmlUnescape, Option.map_some, texts_toList]

-----------------------------------------------------------------------------------------
-- Task scheduler
-----------------------------------------------------------------------------------------

def commandTag : List Char := "Command".toList

def argumentsTag : List Char := "Arguments".toList

/-- Before the command there is no element of its name, nor of the name of its arguments. -/
theorem taskHead_layout
    : ∃ head,
        taskHead.toList = head ++ '<' :: (commandTag ++ ['>'])
        ∧ ∀ token ∈ xmlTokens head, token.tag ≠ commandTag ∧ token.tag ≠ argumentsTag :=
  ⟨taskDeclaration.toList ++ (taskSchema.toList ++ (taskInstances.toList ++ (taskRestart.toList
      ++ (taskTriggers.toList ++ "<Actions Context=\"Author\"><Exec>".toList)))), by
    have opened : taskCommand.toList
        = "<Actions Context=\"Author\"><Exec>".toList ++ '<' :: (commandTag ++ ['>']) := by
      decide
    simp only [taskHead, String.toList_append, opened, List.append_assoc], by decide +kernel⟩

theorem taskArguments_layout
    : taskArguments.toList
      = '<' :: ("/Command".toList ++ '>' :: ('<' :: (argumentsTag ++ ['>']))) := by
  decide

theorem taskTail_layout : ∃ tail, taskTail.toList = '<' :: tail :=
  ⟨taskTail.toList.tail, by decide⟩

theorem find?_other {tag : List Char} {token : XmlToken} (tokens : List XmlToken)
    (other : token.tag ≠ tag)
    : (token :: tokens).find? (fun token => token.tag = tag)
      = tokens.find? (fun token => token.tag = tag) :=
  List.find?_cons_of_neg (fun same => other (of_decide_eq_true same))

theorem find?_named (tag content : List Char) (tokens : List XmlToken)
    : ((⟨tag, content⟩ : XmlToken) :: tokens).find? (fun token => token.tag = tag)
      = some ⟨tag, content⟩ :=
  List.find?_cons_of_pos (decide_eq_true rfl)

/-- The tags of a task: those of its head, and its command with the arguments. -/
theorem xmlTokens_renderTaskScheduler (spec : McpDaemonSpec)
    : ∃ head after,
        xmlTokens (renderTaskScheduler spec).toList
          = head ++ ⟨commandTag, (xmlEscape spec.executable).toList⟩ :: ⟨"/Command".toList, []⟩ ::
              ⟨argumentsTag,
                (xmlEscape (joinWith ' ' (spec.launchArgs.map windowsQuote))).toList⟩ :: after
        ∧ ∀ token ∈ head, token.tag ≠ commandTag ∧ token.tag ≠ argumentsTag := by
  obtain ⟨head, begins, others⟩ := taskHead_layout
  obtain ⟨tail, ends⟩ := taskTail_layout
  refine ⟨xmlTokens head, xmlTokens ('<' :: tail), ?_, others⟩
  have layout : (renderTaskScheduler spec).toList
      = head ++ '<' :: (commandTag ++ '>' :: ((xmlEscape spec.executable).toList
        ++ '<' :: ("/Command".toList ++ '>' :: ([] ++ '<' :: (argumentsTag ++ '>' ::
          ((xmlEscape (joinWith ' ' (spec.launchArgs.map windowsQuote))).toList
            ++ '<' :: tail)))))) := by
    simp only [renderTaskScheduler, String.toList_append, begins, taskArguments_layout, ends,
      List.append_assoc, List.cons_append, List.nil_append]
  rw [layout, xmlTokens_append, xmlTokens_element_append _ (by decide) (by decide)
    (xmlEscape_no_tag _), xmlTokens_element_append _ (by decide) (by decide)
    List.not_mem_nil, xmlTokens_element_append _ (by decide) (by decide)
    (xmlEscape_no_tag _)]

/-- The task scheduler reads the executable, and the arguments from one line. -/
theorem taskSchedulerStarts_render (spec : McpDaemonSpec)
    : taskSchedulerStarts (renderTaskScheduler spec)
      = some (spec.executable :: texts
          (commandLineToArgv (joinWith ' ' (spec.launchArgs.map windowsQuote)).toList)) := by
  obtain ⟨head, after, tokens, others⟩ := xmlTokens_renderTaskScheduler spec
  have noCommand : head.find? (fun token => token.tag = commandTag) = none :=
    List.find?_eq_none.mpr (fun token inside same =>
      (others token inside).1 (of_decide_eq_true same))
  have noArguments : head.find? (fun token => token.tag = argumentsTag) = none :=
    List.find?_eq_none.mpr (fun token inside same =>
      (others token inside).2 (of_decide_eq_true same))
  have found : taskSchedulerStarts (renderTaskScheduler spec) = (do
      let command ← (xmlTokens (renderTaskScheduler spec).toList).find?
        (fun token => token.tag = commandTag)
      let arguments ← (xmlTokens (renderTaskScheduler spec).toList).find?
        (fun token => token.tag = argumentsTag)
      let program ← xmlUnescape command.content
      let line ← xmlUnescape arguments.content
      return texts (program :: commandLineToArgv line)) := rfl
  have command : commandTag ≠ argumentsTag := by decide
  have commandEnd : "/Command".toList ≠ argumentsTag := by decide
  rw [found, tokens, List.find?_append, noCommand, Option.none_or, find?_named, List.find?_append,
    noArguments, Option.none_or, find?_other _ command, find?_other _ commandEnd, find?_named]
  simp only [Option.bind_eq_bind, Option.bind_some, xmlUnescape_xmlEscape, Option.pure_def]
  simp [texts]

end CodebaseGraph.Daemon

/-! When every service manager starts exactly the configured command. -/

namespace CodebaseGraph.Daemon

open CodebaseGraph.Wiki CodebaseGraph.Wiki.Render

/-- Paths without control characters, and a fingerprint of one line. -/
structure McpDaemonSpec.Printable (spec : McpDaemonSpec) : Prop where
  executable : ∀ character ∈ spec.executable.toList, 32 ≤ character.toNat
  configPath : ∀ character ∈ spec.configPath.toList, 32 ≤ character.toNat
  fingerprint : '\n' ∉ spec.repositoryFingerprint.toList

/-- Every service manager starts the configured command: systemd whatever its specifiers and
variables stand for, and the task scheduler if no path has a quotation mark.
-/
structure McpDaemonSpec.Starts (isSpecifier : Char → Bool) (spec : McpDaemonSpec) : Prop where
  launchd : launchdStarts (renderLaunchd spec) = some spec.command
  systemd
    : ∀ host : SystemdHost,
      (∀ letter, (host.specifier letter).isSome = isSpecifier letter) →
      systemdStarts host (renderSystemd spec) = some spec.command
  taskScheduler
    : '"' ∉ spec.executable.toList → '"' ∉ spec.configPath.toList →
      taskSchedulerStarts (renderTaskScheduler spec) = some spec.command

-- Arguments that are the same for all

theorem hasSpecifier_of_plain (isSpecifier : Char → Bool) {word : List Char} (plain : '%' ∉ word)
    : hasSpecifier isSpecifier false word = false := by
  induction word with
  | nil => rfl
  | cons character rest ih =>
      have other : decide (character = '%') = false :=
        decide_eq_false (fun same => plain (same ▸ List.mem_cons_self))
      rw [hasSpecifier, other]
      exact ih (fun found => plain (List.mem_cons_of_mem _ found))

theorem hasReference_of_plain {word : List Char} (plain : '$' ∉ word)
    : hasReference .none word = false := by
  induction word with
  | nil => rfl
  | cons character rest ih =>
      have other : character ≠ '$' := fun same => plain (same ▸ List.mem_cons_self)
      rw [hasReference, if_neg other]
      exact ih (fun found => plain (List.mem_cons_of_mem _ found))

theorem isLiteral_of_plain (isSpecifier : Char → Bool) {word : List Char} (percent : '%' ∉ word)
    (dollar : '$' ∉ word)
    : isLiteral isSpecifier word := by
  have unnamed : wordVariable word = none := by
    unfold wordVariable
    split
    · exact absurd List.mem_cons_self dollar
    · rfl
  rw [isLiteral, hasSpecifier_of_plain isSpecifier percent, hasReference_of_plain dollar, unnamed]
  rfl

theorem port_isDigit (port : Nat)
    : ∀ character ∈ (toString port).toList, character.isDigit = true := by
  intro character inside
  rw [Nat.toString_eq_ofList_toDigits, String.toList_ofList] at inside
  exact Nat.isDigit_of_mem_toDigits (by decide) (by decide) inside

/-- No digit of a port is one of the other characters. -/
theorem port_without (port : Nat) {character : Char} (other : character.isDigit = false)
    : character ∉ (toString port).toList := by
  intro inside
  have digit := port_isDigit port character inside
  rw [other] at digit
  cases digit

def fixedArguments : List String := ["mcp", "daemon", "serve", "--config"]

theorem fixedArguments_plain
    : ∀ argument ∈ fixedArguments,
        '%' ∉ argument.toList ∧ '$' ∉ argument.toList ∧ '"' ∉ argument.toList
        ∧ '\n' ∉ argument.toList ∧ argument.toList.getLast? ≠ some '\\' := by
  decide

theorem launchArgs_eq (spec : McpDaemonSpec)
    : spec.launchArgs = fixedArguments ++ [spec.configPath, "--port", toString spec.port] := rfl

/-- What holds of the fixed arguments and of digits holds of the whole command, if it does of the
paths.
-/
theorem forall_mem_launchArgs {p : List Char → Prop} (spec : McpDaemonSpec)
    (fixed : ∀ argument ∈ fixedArguments, p argument.toList) (option : p "--port".toList)
    (port : p (toString spec.port).toList)
    : (∀ argument ∈ spec.launchArgs, p argument.toList) ↔ p spec.configPath.toList := by
  rw [launchArgs_eq]
  constructor
  · intro all
    exact all spec.configPath (by simp)
  · intro config argument inside
    rcases List.mem_append.mp inside with found | found
    · exact fixed argument found
    · simp only [List.mem_cons, List.not_mem_nil, or_false] at found
      rcases found with same | same | same <;> subst same <;> assumption

-----------------------------------------------------------------------------------------
-- Starts
-----------------------------------------------------------------------------------------

theorem without_control {text : List Char} (printable : ∀ character ∈ text, 32 ≤ character.toNat)
    : '\n' ∉ text := by
  intro inside
  exact absurd (printable '\n' inside) (by decide)

theorem command_single {spec : McpDaemonSpec} (printable : spec.Printable)
    : ∀ word ∈ spec.command, '\n' ∉ word.toList := by
  have arguments : ∀ argument ∈ spec.launchArgs, '\n' ∉ argument.toList :=
    (forall_mem_launchArgs (p := ('\n' ∉ ·)) spec
      (fun argument inside => (fixedArguments_plain argument inside).2.2.2.1) (by decide)
      (port_without spec.port (by decide))).mpr (without_control printable.configPath)
  exact List.forall_mem_cons.mpr ⟨without_control printable.executable, arguments⟩

/-- systemd starts the configured command exactly if nothing is expanded in the paths. -/
theorem systemdStarts_iff {isSpecifier : Char → Bool} {spec : McpDaemonSpec}
    (printable : spec.Printable)
    : (∀ host : SystemdHost,
        (∀ letter, (host.specifier letter).isSome = isSpecifier letter) →
        systemdStarts host (renderSystemd spec) = some spec.command)
      ↔ isLiteral isSpecifier spec.executable.toList ∧ isLiteral isSpecifier spec.configPath.toList
      := by
  have decoded : ∀ host : SystemdHost,
      systemdStarts host (renderSystemd spec) = some spec.command
        ↔ systemdArguments host (systemdLine (spec.command.map String.toList))
          = some (spec.command.map String.toList) := by
    intro host
    rw [systemdStarts_render host spec printable.fingerprint (command_single printable)]
    constructor
    · intro started
      obtain ⟨arguments, found, same⟩ := Option.map_eq_some_iff.mp started
      rw [found, ← same]
      simp [texts]
    · intro found
      rw [found, Option.map_some, texts_toList]
  have arguments : (∀ argument ∈ spec.launchArgs, isLiteral isSpecifier argument.toList = true)
      ↔ isLiteral isSpecifier spec.configPath.toList = true :=
    forall_mem_launchArgs (p := (isLiteral isSpecifier · = true)) spec
      (fun argument inside =>
        isLiteral_of_plain isSpecifier (fixedArguments_plain argument inside).1
          (fixedArguments_plain argument inside).2.1)
      (isLiteral_of_plain isSpecifier (by decide) (by decide))
      (isLiteral_of_plain isSpecifier (port_without spec.port (by decide))
        (port_without spec.port (by decide)))
  simp only [decoded]
  rw [systemdArguments_line_iff, List.forall_mem_map, McpDaemonSpec.command, List.forall_mem_cons,
    arguments]

/-- The task scheduler starts the configured command exactly if the path of the configuration
does not end in a backslash.
-/
theorem taskSchedulerStarts_iff (spec : McpDaemonSpec) (plain : '"' ∉ spec.configPath.toList)
    : taskSchedulerStarts (renderTaskScheduler spec) = some spec.command
      ↔ spec.configPath.toList.getLast? ≠ some '\\' := by
  have quotes : ∀ argument ∈ spec.launchArgs, '"' ∉ argument.toList :=
    (forall_mem_launchArgs (p := ('"' ∉ ·)) spec
      (fun argument inside => (fixedArguments_plain argument inside).2.2.1) (by decide)
      (port_without spec.port (by decide))).mpr plain
  have portEnd : (toString spec.port).toList.getLast? ≠ some '\\' := fun last =>
    port_without spec.port (by decide) (List.mem_of_getLast? last)
  rw [taskSchedulerStarts_render, toList_quotedLine _ quotes, McpDaemonSpec.command,
    Option.some.injEq, List.cons.injEq, eq_self, true_and]
  constructor
  · intro started slash
    have argv : commandLineToArgv (quotedLine (spec.launchArgs.map String.toList))
        = spec.launchArgs.map String.toList := by
      simpa [texts] using congrArg (List.map String.toList) started
    have fixed : spec.launchArgs.map String.toList
        = "mcp".toList :: "daemon".toList :: "serve".toList :: "--config".toList ::
            spec.configPath.toList :: "--port".toList :: [(toString spec.port).toList] := rfl
    rw [fixed, commandLineToArgv_cons _ _ _ (by decide) (by decide),
      commandLineToArgv_cons _ _ _ (by decide) (by decide),
      commandLineToArgv_cons _ _ _ (by decide) (by decide),
      commandLineToArgv_cons _ _ _ (by decide) (by decide)] at argv
    have lost := commandLineToArgv_slash spec.configPath.toList "--port".toList
      [(toString spec.port).toList] plain slash
    apply lost
    simp only [List.cons.injEq, true_and] at argv
    rw [argv, List.head?_cons]
  · intro ended
    have ends : ∀ argument ∈ spec.launchArgs, argument.toList.getLast? ≠ some '\\' :=
      (forall_mem_launchArgs (p := (·.getLast? ≠ some '\\')) spec
        (fun argument inside => (fixedArguments_plain argument inside).2.2.2.2) (by decide)
        portEnd).mpr ended
    rw [commandLineToArgv_quotedLine _ (List.forall_mem_map.mpr quotes)
      (List.forall_mem_map.mpr ends), texts_toList]

/-- Every service manager starts the configured command exactly if nothing is expanded in a path,
and the path of the configuration does not end in a backslash where Windows reads it.
-/
theorem McpDaemonSpec.starts_iff (isSpecifier : Char → Bool) (spec : McpDaemonSpec)
    (printable : spec.Printable)
    : spec.Starts isSpecifier
      ↔ isLiteral isSpecifier spec.executable.toList
        ∧ isLiteral isSpecifier spec.configPath.toList
        ∧ ('"' ∉ spec.executable.toList → '"' ∉ spec.configPath.toList →
            spec.configPath.toList.getLast? ≠ some '\\') := by
  constructor
  · intro starts
    obtain ⟨executable, config⟩ := (systemdStarts_iff printable).mp starts.systemd
    refine ⟨executable, config, ?_⟩
    intro _ plain
    exact (taskSchedulerStarts_iff spec plain).mp (starts.taskScheduler ‹_› plain)
  · intro ⟨executable, config, ended⟩
    exact {
      launchd := launchdStarts_render spec
      systemd := (systemdStarts_iff printable).mpr ⟨executable, config⟩
      taskScheduler := fun first plain => (taskSchedulerStarts_iff spec plain).mpr (ended first plain)
    }

/-- A configuration in a directory whose name has a percent sign. -/
def percentSpec : McpDaemonSpec where
  configPath := "/srv/50%h/mcp.json"
  port := 43123
  repositoryFingerprint := "0123456789abcdef"
  serviceId := "io.codebasegraph.mcp.0123456789abcdef"
  executable := "/usr/bin/codebase-graph"

theorem printable_of_all {text : List Char}
    (all : text.all (fun character => decide (32 ≤ character.toNat)) = true)
    : ∀ character ∈ text, 32 ≤ character.toNat :=
  fun character inside => of_decide_eq_true (List.all_eq_true.mp all character inside)

def homeDirectory (letter : Char) : Option (List Char) :=
  if letter = 'h' then some "/root".toList else none

/-- systemd starts the daemon with the path of another configuration. -/
theorem McpDaemonSpec.starts_percent
    : percentSpec.Printable
      ∧ systemdStarts ⟨homeDirectory, fun _ => []⟩ (renderSystemd percentSpec)
        = some ["/usr/bin/codebase-graph", "mcp", "daemon", "serve", "--config",
            "/srv/50/root/mcp.json", "--port", "43123"]
      ∧ ¬ percentSpec.Starts (fun letter => letter = 'h') := by
  have printable : percentSpec.Printable := {
    executable := printable_of_all (by decide)
    configPath := printable_of_all (by decide)
    fingerprint := by decide
  }
  refine ⟨printable, ?_, ?_⟩
  · rw [systemdStarts_render _ _ printable.fingerprint (command_single printable)]
    decide
  · intro starts
    have literal := (systemdStarts_iff printable).mp starts.systemd
    exact absurd literal.2 (by decide)

/-- All service managers start the daemon of an ordinary path. -/
theorem McpDaemonSpec.starts_plain
    : McpDaemonSpec.Starts (fun letter => letter = 'h')
        { percentSpec with configPath := "/srv/graph & co/mcp.json" } :=
  (McpDaemonSpec.starts_iff _ _
    { executable := printable_of_all (by decide)
      configPath := printable_of_all (by decide)
      fingerprint := by decide }).mpr
    ⟨by decide, by decide, fun _ _ => by decide⟩

end CodebaseGraph.Daemon
