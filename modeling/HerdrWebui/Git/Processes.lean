import HerdrWebui.Data.Logged
import HerdrWebui.Git.Requests
import HerdrWebui.Git.UnifiedDiff

/-!
Runs of git on behalf of a request, in the order they start, and which requests are
refused before the first of them.
-/

namespace HerdrWebui.Git

/-- `git -C repo args`. -/
structure GitProcess where
  repo : String
  args : List String
deriving DecidableEq, Repr

structure GitOutput where
  success : Bool
  status : String
  stdout : String
  stderr : String
deriving DecidableEq, Repr

/-- What answers while a request is served: the home directory of the server, and each
run of git, which may also fail to start. -/
structure GitEnv where
  home : Option String
  output : GitProcess → Except String GitOutput

abbrev GitRun := Logged GitProcess String

def startGit (env : GitEnv) (process : GitProcess) : GitRun GitOutput :=
  ⟨env.output process, [process]⟩

def gitFailure (output : GitOutput) (context : String) : String :=
  let stderr := trim output.stderr
  let stdout := trim output.stdout
  let status := output.status
  if stderr ≠ "" then stderr
  else if stdout ≠ "" then stdout
  else s!"{context} failed with status {status}"

/-- `git_ui_repo`: the path is checked and put in full, and git is asked whether a
repository is there. -/
def askGitUiRepo (env : GitEnv) (cwd : String) : GitRun String := do
  let expanded ← .ofExcept (gitUiRepo env.home cwd)
  let output ← startGit env ⟨expanded, ["rev-parse", "--show-toplevel"]⟩
  if !output.success then .fail (gitFailure output "git rev-parse") else return expanded

def gitUiOutput (env : GitEnv) (cwd : String) (args : List String) : GitRun GitOutput := do
  let repo ← askGitUiRepo env cwd
  startGit env ⟨repo, args⟩

def gitUiText (env : GitEnv) (cwd : String) (args : List String) : GitRun String := do
  let output ← gitUiOutput env cwd args
  if output.success then return output.stdout
  else .fail (gitFailure output (args.headD "git"))

def isNotGitRepository (message : String) : Bool :=
  hasInfix "not a git repository" message || hasInfix "not a git work tree" message

/-- The empty tree in the place of the parent that a root commit does not have. -/
def rootParentFallback (env : GitEnv) (cwd commit : String) : GitRun (Option String) := do
  let output ← gitUiOutput env cwd ["rev-list", "--parents", "-n", "1", commit]
  if !output.success ∨ (splitWhitespace output.stdout).length ≠ 1 then return none
  else
    let tree ← gitUiOutput env cwd ["mktree"]
    let hash := trim tree.stdout
    return if !tree.success ∨ hash = "" then none else some hash

/-- The empty tree is no commit, so no merge base with it is asked for. -/
def withEmptyTree (args : List String) (commit emptyTree : String) : List String :=
  match args.idxOf? (commit ++ "^") with
  | none => args
  | some index => (args.set index emptyTree).erase "--merge-base"

/-- The commit whose parent is to be compared from. -/
def rootParentBase (query : GitUiDiffQuery) (compare : Bool) : Option String := do
  let base ← if compare then query.base else none
  let trimmed := trim base
  if trimmed.toList.getLast? = some '^' then String.ofList trimmed.toList.dropLast else none

/-- The part of a diff that runs git; both transports have it inline, in the same
words. -/
def runDiff (env : GitEnv) (cwd : String) (args : List String)
    (rootParentBase : Option String) : GitRun String :=
  match rootParentBase with
  | none => gitUiText env cwd args
  | some commit => do
      let fallback ← (rootParentFallback env cwd commit).attempt
      match fallback with
      | .ok (some emptyTree) => gitUiText env cwd (withEmptyTree args commit emptyTree)
      | _ => gitUiText env cwd args

/-- The diff a selected chunk is taken from. It compares as soon as one of the two refs
is there. -/
def chunkArgs (body : GitUiApplyPatchRequest) (file : String) : Except String (List String) :=
  let query : GitUiDiffQuery :=
    { cwd := some body.cwd, scope := body.scope, file := some file, base := body.base
      target := body.target, mergeBase := body.mergeBase, context := body.context
      layout := none, q := none }
  gitUiDiffArgs query (body.base.isSome || body.target.isSome)

def chunkPatch (env : GitEnv) (body : GitUiApplyPatchRequest) : GitRun (Option String) :=
  match body.file, body.chunkIndex with
  | some file, some chunkIndex => do
      let args ← .ofExcept (chunkArgs body file)
      let text ← gitUiText env body.cwd args
      let patch ← .ofExcept (selectedPatch (parseUnifiedDiff text) file chunkIndex)
      return some patch
  | _, _ => return none

section refusal
variable {env : GitEnv} {cwd : String} {args : List String}

theorem gitUiText_of_error {err : String}
    (h : safeGitToken cwd "repository path" = .error err) : gitUiText env cwd args = .fail err := by
  simp [gitUiText, gitUiOutput, askGitUiRepo, gitUiRepo, h, Except.map]

theorem gitUiOutput_of_error {err : String}
    (h : safeGitToken cwd "repository path" = .error err) :
    gitUiOutput env cwd args = .fail err := by
  simp [gitUiOutput, askGitUiRepo, gitUiRepo, h, Except.map]

theorem gitUiText_log_ne_nil {token : String}
    (h : safeGitToken cwd "repository path" = .ok token) : (gitUiText env cwd args).log ≠ [] := by
  have hrepo : (askGitUiRepo env cwd).log ≠ [] := by
    simp only [askGitUiRepo, gitUiRepo, h, Except.map, Logged.ofExcept_ok, Logged.pure_bind]
    exact Logged.bind_log_ne_nil (List.cons_ne_nil _ _)
  exact Logged.bind_log_ne_nil (Logged.bind_log_ne_nil hrepo)

/-- No git is run in a directory whose name is refused, not even for the parent of a
root commit. -/
theorem runDiff_of_error {err : String} {rootParentBase : Option String}
    (h : safeGitToken cwd "repository path" = .error err) :
    runDiff env cwd args rootParentBase = .fail err := by
  cases rootParentBase with
  | none => exact gitUiText_of_error h
  | some commit =>
    have hfallback : rootParentFallback env cwd commit = .fail err := by
      simp [rootParentFallback, gitUiOutput_of_error h]
    simp [runDiff, hfallback, Logged.attempt_fail, gitUiText_of_error h]

/-- Whether git is run for the chunk a request selects. -/
def startsChunkDiff (body : GitUiApplyPatchRequest) : Bool :=
  match body.file, body.chunkIndex with
  | some file, some _ =>
    (chunkArgs body file).isOk && (safeGitToken body.cwd "repository path").isOk
  | _, _ => false

theorem chunkPatch_log_ne_nil {body : GitUiApplyPatchRequest} (h : startsChunkDiff body) :
    (chunkPatch env body).log ≠ [] := by
  unfold startsChunkDiff at h
  unfold chunkPatch
  split at h
  · next file chunkIndex hfile hindex =>
      rw [Bool.and_eq_true] at h
      obtain ⟨hargs, htoken⟩ := h
      cases hchunk : chunkArgs body file with
      | error err =>
        rw [hchunk] at hargs
        cases hargs
      | ok args =>
        cases hcwd : safeGitToken body.cwd "repository path" with
        | error err =>
          rw [hcwd] at htoken
          cases htoken
        | ok token =>
          rw [Logged.ofExcept_ok, Logged.pure_bind]
          exact Logged.bind_log_ne_nil (gitUiText_log_ne_nil hcwd)
  · cases h

theorem chunkPatch_of_not_starts {body : GitUiApplyPatchRequest}
    (h : startsChunkDiff body = false) :
    chunkPatch env body = pure none ∨ ∃ err, chunkPatch env body = .fail err := by
  unfold startsChunkDiff at h
  unfold chunkPatch
  split at h
  · next file chunkIndex hfile hindex =>
      right
      cases hchunk : chunkArgs body file with
      | error err => exact ⟨err, by simp⟩
      | ok args =>
        cases hcwd : safeGitToken body.cwd "repository path" with
        | error err => exact ⟨err, by simp [gitUiText_of_error hcwd]⟩
        | ok token =>
          rw [hchunk, hcwd] at h
          cases h
  · left
    rfl

end refusal

end HerdrWebui.Git
