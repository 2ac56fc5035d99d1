import HerdrWebui.Data.DepthFirst
import HerdrWebui.Data.Text

/-!
The agent of a terminal, from the processes below its root: the label of one process, and the
search of the process table for the first one that has a label. The table is what the system
lists, so that a process may be listed twice, be its own parent or be below itself.
-/

namespace HerdrWebui.Agent

structure ProcessInfo where
  pid : Nat
  ppid : Nat
  command : String
  args : String
  deriving DecidableEq

/-- `Path::file_name`: the last component that is no dot; there is none if that is two dots. -/
def fileName (path : String) : Option String :=
  ((((path.toList.splitOn '/').filter fun part => part ≠ [] ∧ part ≠ ['.']).getLast?).filter
    (· ≠ ['.', '.'])).map String.ofList

/-- `Path::file_stem`: the file name up to its last dot, if that is not its first character. -/
def fileStem (path : String) : Option String :=
  (fileName path).map fun name =>
    let before := (name.toList.rdropWhile (· ≠ '.')).dropLast
    if before = [] then name else String.ofList before

/-- `trim_matches` for quotation marks. -/
def trimQuotes (name : String) : String :=
  String.ofList ((name.toList.dropWhile fun ch => ch = '"' || ch = '\'').rdropWhile
    fun ch => ch = '"' || ch = '\'')

def agentLabel : String → Option String
  | "pi" => some "pi"
  | "jcode" => some "jcode"
  | "claude" | "claude-code" => some "claude"
  | "codex" => some "codex"
  | "gemini" => some "gemini"
  | "cursor" | "cursor-agent" => some "cursor"
  | "devin" | "devin-cli" => some "devin"
  | "agy" | "antigravity" | "antigravity-cli" => some "agy"
  | "cline" => some "cline"
  | "omp" => some "omp"
  | "mastracode" | "mastra-code" => some "mastracode"
  | "opencode" | "open-code" => some "opencode"
  | "copilot" | "github-copilot" | "ghcs" => some "copilot"
  | "kimi" | "kimi-code" => some "kimi"
  | "kiro" | "kiro-cli" => some "kiro"
  | "droid" => some "droid"
  | "amp" | "amp-local" => some "amp"
  | "grok" | "grok-build" => some "grok"
  | "hermes" | "hermes-agent" => some "hermes"
  | "kilo" | "kilo-code" => some "kilo"
  | "qodercli" | "qoderclicn" | "qoder" | "qodercn" => some "qodercli"
  | "maki" => some "maki"
  | "claurst" => some "claurst"
  | "qwen" | "qwen-code" => some "qwen"
  | _ => none

def shortFlagPayload (arg flag : String) : Bool :=
  hasPrefix "-" flag && !hasPrefix "--" flag && hasPrefix flag arg &&
    flag.utf8ByteSize < arg.utf8ByteSize

def longFlagValue (arg flag : String) : Bool :=
  hasPrefix "--" flag && (stripPrefix flag arg).any fun rest => hasPrefix "=" rest

def flagMatches (arg : String) (flags : List String) : Bool :=
  flags.any fun flag => arg = flag || shortFlagPayload arg flag || longFlagValue arg flag

def optionTakesValue (arg : String) : Bool :=
  arg ∈ ["-r", "--require", "--loader", "--import", "--experimental-loader", "--inspect-port",
    "-W", "-X", "-S", "-L", "-o"]

/-- The arguments as a shell reads them, from the ones that are complete and the one at hand. -/
def processArgsGo (tokens : List String) (current : List Char) (quote : Option Char)
    (escaped : Bool) : List Char → List String
  | [] =>
    let current := if escaped then current ++ ['\\'] else current
    if current = [] then tokens else tokens ++ [String.ofList current]
  | ch :: rest =>
    if escaped then processArgsGo tokens (current ++ [ch]) quote false rest
    else if ch = '\\' then processArgsGo tokens current quote true rest
    else
      match quote with
      | some activeQuote =>
        if ch = activeQuote then processArgsGo tokens current none false rest
        else processArgsGo tokens (current ++ [ch]) quote false rest
      | none =>
        if ch = '"' ∨ ch = '\'' then processArgsGo tokens current (some ch) false rest
        else if isWhitespace ch then
          if current = [] then processArgsGo tokens [] none false rest
          else processArgsGo (tokens ++ [String.ofList current]) [] none false rest
        else processArgsGo tokens (current ++ [ch]) none false rest

def processArgsTokens (input : String) : List String :=
  processArgsGo [] [] none false input.toList

section Label

variable (toLowercase : String → String)

def detectAgentLabel (argv : List String) : Option String :=
  argv.head?.bind fun command => agentLabel (toLowercase ((fileStem command).getD command))

def normalizedCommandName (name : String) : String :=
  let name := toLowercase (trimQuotes ((fileName name).getD name))
  let endings := [".exe", ".cmd", ".bat", ".ps1", ".js"]
  (endings.findSome? fun ending => stripSuffix ending name).getD name

/-- The first argument that is no option names the script. -/
def scriptArgGo (evalFlags moduleFlags : List String) : (args : List String) → Option String
  | [] => none
  | arg :: args =>
    if arg = "--" then args.head?.bind fun token => detectAgentLabel toLowercase [token]
    else if flagMatches arg evalFlags || flagMatches arg moduleFlags then none
    else if hasPrefix "-" arg then
      scriptArgGo evalFlags moduleFlags (if optionTakesValue arg then args.drop 1 else args)
    else detectAgentLabel toLowercase [arg]
termination_by args => args.length
decreasing_by
  split <;> simp

def scriptArgAgentLabel (argv evalFlags moduleFlags : List String) : Option String :=
  scriptArgGo toLowercase evalFlags moduleFlags (argv.drop 1)

def isGenericRuntimeOrShell (name : String) : Bool :=
  normalizedCommandName toLowercase name ∈
    ["sh", "bash", "zsh", "fish", "tmux", "node", "bun", "python", "python3"]

def wrappedAgentLabelFromRuntimeArgv (runtime : String) (argv : List String) : Option String :=
  let runtime := normalizedCommandName toLowercase runtime
  if runtime ∈ ["node", "bun"] then
    scriptArgAgentLabel toLowercase argv ["-e", "--eval", "-p", "--print"] []
  else if runtime ∈ ["python", "python3"] then
    scriptArgAgentLabel toLowercase argv ["-c"] ["-m"]
  else if runtime ∈ ["sh", "bash", "zsh", "fish"] then
    scriptArgAgentLabel toLowercase argv ["-c"] []
  else none

def detectAgentLabelFromProcess (process : ProcessInfo) : Option String :=
  match detectAgentLabel toLowercase [process.command] with
  | some agent => some agent
  | none =>
    let argv := processArgsTokens process.args
    match argv.head?.bind fun candidate => detectAgentLabel toLowercase [candidate] with
    | some agent => some agent
    | none =>
      let runtime := argv.head?.getD process.command
      if isGenericRuntimeOrShell toLowercase runtime then
        wrappedAgentLabelFromRuntimeArgv toLowercase runtime argv
      else none

end Label

section Search

variable (label : ProcessInfo → Option String) (processes : List ProcessInfo)

/-- The processes by their pids: of two with the same one the last stays. -/
def listedProcess (pid : Nat) : Option ProcessInfo :=
  (processes.filter (·.pid = pid)).getLast?

/-- The children of a process, as the table lists them. -/
def childLinks : List (Nat × Nat) := processes.map fun process => (process.ppid, process.pid)

/-- The pids on the stack, its top first, are worked off. Each round takes one off or opens
one, so that there is one round at most for each process and one for the root. -/
def detectGo (seen : List Nat) : (stack : List Nat) → Option String
  | [] => none
  | pid :: stack =>
    if pid ∈ seen then detectGo seen stack
    else
      match (listedProcess processes pid).bind label with
      | some agent => some agent
      | none =>
        detectGo (pid :: seen) ((successors (childLinks processes) pid).reverse ++ stack)
termination_by stack => stack.length + (openEdges (childLinks processes) seen).length
decreasing_by
  · simp
  · next h =>
      have hopen := length_openEdges_cons (childLinks processes) h
      simp
      omega

end Search

def detectAgentLabelFromProcesses (toLowercase : String → String) (rootPid : Nat)
    (processes : List ProcessInfo) : Option String :=
  detectGo (detectAgentLabelFromProcess toLowercase) processes [] [rootPid]

/-- A process that the search may come to: it is the last of its pid in the table, and the root
leads to the pid. -/
structure Reachable (rootPid : Nat) (processes : List ProcessInfo) (process : ProcessInfo) :
    Prop where
  listed : listedProcess processes process.pid = some process
  reached : Relation.ReflTransGen (fun parent child => (parent, child) ∈ childLinks processes)
    rootPid process.pid

section Found

variable {label : ProcessInfo → Option String} {processes : List ProcessInfo}

theorem listedProcess_pid {pid : Nat} {process : ProcessInfo}
    (h : listedProcess processes pid = some process) : process.pid = pid := by
  have hmem := List.mem_of_getLast? h
  exact of_decide_eq_true (List.mem_filter.mp hmem).2

theorem detectGo_eq (seen stack : List Nat) :
    detectGo label processes seen stack =
      (visitOrder (childLinks processes) seen stack).findSome? fun pid =>
        (listedProcess processes pid).bind label := by
  induction seen, stack using visit_induction (childLinks processes) with
  | nil seen => rw [detectGo, visitOrder_nil, List.findSome?_nil]
  | skip seen pid stack h ih => rw [detectGo, if_pos h, visitOrder_seen _ h, ih]
  | visit seen pid stack h ih =>
    rw [detectGo, if_neg h, visitOrder_visit _ h, List.findSome?_cons]
    split
    · next agent hagent => rw [hagent]
    · next hnone => rw [hnone, ih]

theorem detectGo_isSome_iff (rootPid : Nat) :
    (detectGo label processes [] [rootPid]).isSome ↔
      ∃ process, Reachable rootPid processes process ∧ (label process).isSome := by
  rw [detectGo_eq, List.findSome?_isSome_iff]
  constructor
  · rintro ⟨pid, hpid, hlabel⟩
    obtain ⟨agent, hagent⟩ := Option.isSome_iff_exists.mp hlabel
    obtain ⟨process, hlisted, hprocess⟩ := Option.bind_eq_some_iff.mp hagent
    obtain rfl := listedProcess_pid hlisted
    exact ⟨process, ⟨hlisted, (mem_visitOrder_iff _ _ _).mp hpid⟩,
      Option.isSome_iff_exists.mpr ⟨agent, hprocess⟩⟩
  · rintro ⟨process, hreachable, hlabel⟩
    refine ⟨process.pid, (mem_visitOrder_iff _ _ _).mpr hreachable.reached, ?_⟩
    rw [hreachable.listed]
    exact hlabel

end Found

/-- The search of a process table finds a label just if one of the processes that it may come to
has one, and it is that of the first of them in depth, where the child that is listed last comes
first. -/
theorem detectAgentLabelFromProcesses_spec (toLowercase : String → String) (rootPid : Nat)
    (processes : List ProcessInfo) :
    ((detectAgentLabelFromProcesses toLowercase rootPid processes).isSome ↔
        ∃ process, Reachable rootPid processes process ∧
          (detectAgentLabelFromProcess toLowercase process).isSome) ∧
      ∀ agent, detectAgentLabelFromProcesses toLowercase rootPid processes = some agent →
        ∃ order process, Reachable rootPid processes process ∧
          detectAgentLabelFromProcess toLowercase process = some agent ∧
          DepthFirst (childLinks processes) rootPid (order ++ [process.pid]) ∧
          ∀ earlier ∈ order, ∀ other, listedProcess processes earlier = some other →
            detectAgentLabelFromProcess toLowercase other = none := by
  refine ⟨detectGo_isSome_iff rootPid, ?_⟩
  intro agent hagent
  rw [detectAgentLabelFromProcesses, detectGo_eq, List.findSome?_eq_some_iff] at hagent
  obtain ⟨order, pid, later, horder, hfound, hearlier⟩ := hagent
  obtain ⟨process, hlisted, hprocess⟩ := Option.bind_eq_some_iff.mp hfound
  obtain rfl := listedProcess_pid hlisted
  have hmem : process.pid ∈ visitOrder (childLinks processes) [] [rootPid] := by
    rw [horder]
    exact List.mem_append_right _ List.mem_cons_self
  refine ⟨order, process, ⟨hlisted, (mem_visitOrder_iff _ _ _).mp hmem⟩, hprocess, ?_, ?_⟩
  · apply depthFirst_of_isPrefix (List.append_ne_nil_of_right_ne_nil _ (List.cons_ne_nil _ _))
    rw [horder]
    exact List.prefix_append_right_inj order |>.mpr (List.prefix_iff_eq_append.mpr rfl)
  · intro earlier hmem other hother
    have hnone := hearlier earlier hmem
    rwa [hother] at hnone

def asciiLowercase (text : String) : String := String.ofList (text.toList.map Char.toLower)

/-- Of two processes with one pid, the first has a label. -/
theorem detectAgentLabelFromProcesses_duplicate :
    ∃ process ∈ [(⟨10, 1, "/usr/bin/jcode", "jcode"⟩ : ProcessInfo), ⟨10, 1, "/bin/zsh", "-zsh"⟩],
      process.pid = 10 ∧
        (detectAgentLabelFromProcess asciiLowercase process).isSome ∧
        detectAgentLabelFromProcesses asciiLowercase 10
          [⟨10, 1, "/usr/bin/jcode", "jcode"⟩, ⟨10, 1, "/bin/zsh", "-zsh"⟩] = none := by
  refine ⟨_, List.mem_cons_self, rfl, ?_, ?_⟩
  · decide +kernel
  · decide +kernel

end HerdrWebui.Agent
