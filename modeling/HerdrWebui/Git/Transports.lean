import HerdrWebui.Git.Processes

/-!
The two transports of the git interface: the handlers behind the HTTP routes, seen from
where the request is authorised, and the dispatch of the built-in socket. Each checks a
request in its own words before the blocking operation is called. They are compared by
the call they end in and by the runs of git on the way to it.
-/

namespace HerdrWebui.Git

/-- The operations that both transports have. -/
inductive Operation where
  | status
  | railStatus
  | diff
  | compare
  | branches
  | branchDelete
  | switch
  | log
  | pathInfo
  | permalink
  | blame
  | file
  | fileWrite
  | fileHistory
  | stashes
  | stashShow
  | conflicts
  | stage
  | unstage
  | discard
  | stash
  | stashApply
  | stashDrop
  | reset
  | rebase
  | fetch
  | pull
  | push
  | commit
  | tag
  | applyPatch
  | conflictResolve
  | conflictAction
  | cleanupScan
  | worktreeRemove
  | worktreePrune
deriving DecidableEq, Repr

def Operation.method : Operation → String
  | .status => "git.status"
  | .railStatus => "git.rail_status"
  | .diff => "git.diff"
  | .compare => "git.compare"
  | .branches => "git.branches"
  | .branchDelete => "git.branch.delete"
  | .switch => "git.switch"
  | .log => "git.log"
  | .pathInfo => "git.path_info"
  | .permalink => "git.permalink"
  | .blame => "git.blame"
  | .file => "git.file"
  | .fileWrite => "git.file_write"
  | .fileHistory => "git.file_history"
  | .stashes => "git.stashes"
  | .stashShow => "git.stash_show"
  | .conflicts => "git.conflicts"
  | .stage => "git.stage"
  | .unstage => "git.unstage"
  | .discard => "git.discard"
  | .stash => "git.stash"
  | .stashApply => "git.stash_apply"
  | .stashDrop => "git.stash_drop"
  | .reset => "git.reset"
  | .rebase => "git.rebase"
  | .fetch => "git.fetch"
  | .pull => "git.pull"
  | .push => "git.push"
  | .commit => "git.commit"
  | .tag => "git.tag"
  | .applyPatch => "git.apply_patch"
  | .conflictResolve => "git.conflict_resolve"
  | .conflictAction => "git.conflict_action"
  | .cleanupScan => "git.cleanup_scan"
  | .worktreeRemove => "git.worktree_remove"
  | .worktreePrune => "git.worktree_prune"

def Operation.all : List Operation :=
  [.status, .railStatus, .diff, .compare, .branches, .branchDelete, .switch, .log, .pathInfo,
    .permalink, .blame, .file, .fileWrite, .fileHistory, .stashes, .stashShow, .conflicts,
    .stage, .unstage, .discard, .stash, .stashApply, .stashDrop, .reset, .rebase, .fetch,
    .pull, .push, .commit, .tag, .applyPatch, .conflictResolve, .conflictAction, .cleanupScan,
    .worktreeRemove, .worktreePrune]

def Operation.ofMethod (method : String) : Option Operation :=
  Operation.all.find? (·.method = method)

theorem Operation.ofMethod_method (op : Operation) : Operation.ofMethod op.method = some op := by
  cases op <;> decide +kernel

structure HttpError where
  status : Nat
  error : String
deriving DecidableEq, Repr

abbrev Http := Logged GitProcess HttpError

def jsonBody {α : Type} [Deserialize α] (params : Params) : Http α :=
  .ofExcept ((fromParams params).mapError fun err =>
    ⟨422, "Failed to deserialize the JSON body into the target type: " ++ err⟩)

def queryString {α : Type} [Deserialize α] (params : Params) : Http α :=
  .ofExcept ((fromParams params).mapError fun err =>
    ⟨400, "Failed to deserialize query string: " ++ err⟩)

def badRequest {α : Type} (error : String) : Http α := .fail ⟨400, error⟩

def orBadRequest {α : Type} (x : Except String α) : Http α := .ofExcept (x.mapError (⟨400, ·⟩))

/-- The handlers that ask for the directory only. -/
def cwdHandler (call : String → GitCall) (params : Params) : Http GitCall := do
  let query : GitUiCwdQuery ← queryString params
  let some cwd := query.cwd | badRequest "cwd is required"
  return call cwd

def gitUiStatus := cwdHandler .status

def gitUiBranches := cwdHandler .branches

def gitUiStashes := cwdHandler .stashes

def gitUiConflicts := cwdHandler .conflicts

def gitUiRailStatus (params : Params) : Http GitCall := do
  let body : GitUiRailStatusRequest ← jsonBody params
  return .railStatus body.workspaces

def gitUiDiffCommon (env : GitEnv) (query : GitUiDiffQuery) (compare : Bool) :
    Http GitCall := do
  let some cwd := query.cwd | badRequest "cwd is required"
  let args ← orBadRequest (gitUiDiffArgs query compare)
  let text ← (runDiff env cwd args (rootParentBase query compare)).attempt
  match text with
  | .ok text => return .diffFiles text query.layout query.q
  | .error err => if isNotGitRepository err then return .noFiles else .fail ⟨502, err⟩

def gitUiDiff (env : GitEnv) (params : Params) : Http GitCall := do
  gitUiDiffCommon env (← queryString params) false

def gitUiCompare (env : GitEnv) (params : Params) : Http GitCall := do
  gitUiDiffCommon env (← queryString params) true

def gitUiBranchDelete (params : Params) : Http GitCall := do
  let body : GitUiBranchDeleteRequest ← jsonBody params
  if !body.confirmed.getD false then badRequest "branch deletion requires confirmation"
  else
    let branch ← orBadRequest (safeGitToken body.branch "branch")
    return .branchDelete body.cwd branch (body.force.getD false)

def gitUiSwitch (params : Params) : Http GitCall := do
  let body : GitUiSwitchRequest ← jsonBody params
  let branch ← orBadRequest (safeGitToken body.branch "branch")
  if branch = "" then badRequest "branch is required"
  else if body.create.getD false then
    let base ← orBadRequest (safeGitToken (body.base.getD "HEAD") "base")
    return .switch body.cwd ["switch", "-c", branch, base]
  else return .switch body.cwd ["switch", branch]

def gitUiLog (params : Params) : Http GitCall := do
  let query : GitUiLogQuery ← queryString params
  let some cwd := query.cwd | badRequest "cwd is required"
  let limit := clamp 1 2000 (query.max.getD 80)
  let scope ← orBadRequest (GitLogScope.fromQuery query.scope (query.all.getD false))
  return .log cwd limit scope query.base query.file

def gitUiPathInfo (params : Params) : Http GitCall := do
  let query : GitUiPathInfoQuery ← queryString params
  return .pathInfo query.cwd query.path

def gitUiPermalink (params : Params) : Http GitCall := do
  let query : GitUiPermalinkQuery ← queryString params
  return .permalink query.cwd query.path

def gitUiBlame (params : Params) : Http GitCall := do
  let query : GitUiBlameQuery ← queryString params
  let (some cwd, some file) := (query.cwd, query.file)
    | badRequest "cwd and file are required"
  let file ← orBadRequest (safeRepoPath file)
  let refName ← orBadRequest (safeGitToken (query.refName.getD "working") "ref")
  return .blame cwd file refName

def gitUiFile (params : Params) : Http GitCall := do
  let query : GitUiFileQuery ← queryString params
  let (some cwd, some file) := (query.cwd, query.file)
    | badRequest "cwd and file are required"
  let file ← orBadRequest (safeRepoPath file)
  return .file cwd file query.refName

def gitUiWriteFile (params : Params) : Http GitCall := do
  let body : GitUiWriteFileRequest ← jsonBody params
  let path ← orBadRequest (safeRepoPath body.path)
  return .writeFile body.cwd path body.content body.expectedHash

def gitUiFileHistory (params : Params) : Http GitCall := do
  let query : GitUiFileHistoryQuery ← queryString params
  let (some cwd, some file) := (query.cwd, query.file)
    | badRequest "cwd and file are required"
  let file ← orBadRequest (safeRepoPath file)
  return .fileHistory cwd file

def gitUiStashShow (params : Params) : Http GitCall := do
  let query : GitUiStashShowQuery ← queryString params
  let some cwd := query.cwd | badRequest "cwd is required"
  let stash ← orBadRequest (safeGitToken (query.stash.getD "stash@\x7b0\x7d") "stash")
  return .stashShow cwd stash (query.context.getD 3) query.layout query.q

def gitUiStage (params : Params) : Http GitCall := do
  let body : GitUiPathsRequest ← jsonBody params
  let paths ← orBadRequest (gitUiPaths body)
  return .stage body.cwd paths

def gitUiUnstage (params : Params) : Http GitCall := do
  let body : GitUiPathsRequest ← jsonBody params
  let paths ← orBadRequest (gitUiPaths body)
  return .unstage body.cwd paths

def gitUiDiscard (params : Params) : Http GitCall := do
  let body : GitUiPathsRequest ← jsonBody params
  if !body.confirmed.getD false then badRequest "discard requires confirmation"
  else
    let paths ← orBadRequest (gitUiPaths body)
    return .discard body.cwd paths

def gitUiStash (params : Params) : Http GitCall := do
  let body : GitUiStashPushRequest ← jsonBody params
  let msg := body.message.getD "herdr-webui stash"
  let safePaths : Option (List String) ←
    match body.paths with
    | none | some [] => pure none
    | some paths => do
        let safe ← orBadRequest (paths.mapM safeRepoPath)
        pure (some safe)
  return .stash body.cwd msg safePaths

def gitUiStashApply (params : Params) : Http GitCall := do
  let body : GitUiStashApplyRequest ← jsonBody params
  let stash ← orBadRequest (safeGitToken (body.stash.getD "stash@\x7b0\x7d") "stash")
  return .stashApply body.cwd stash (body.pop.getD false)

def gitUiStashDrop (params : Params) : Http GitCall := do
  let body : GitUiStashDropRequest ← jsonBody params
  if !body.confirmed.getD false then badRequest "stash drop requires confirmation"
  else
    let stash ← orBadRequest (safeGitToken (body.stash.getD "stash@\x7b0\x7d") "stash")
    return .stashDrop body.cwd stash

def resetMode : String → Option String
  | "soft" => some "--soft"
  | "mixed" => some "--mixed"
  | "hard" => some "--hard"
  | _ => none

def gitUiReset (params : Params) : Http GitCall := do
  let body : GitUiResetRequest ← jsonBody params
  let some mode := resetMode body.mode | badRequest "invalid reset mode"
  if mode = "--hard" ∧ body.confirmation ≠ some "reset hard" then
    badRequest "hard reset requires typed confirmation"
  else
    let refName ← orBadRequest (safeGitToken body.refName "ref")
    return .reset body.cwd mode refName

def optionalToken (value : Option String) (label : String) : Except String (Option String) :=
  match value.filter fun value => trim value ≠ "" with
  | none => .ok none
  | some value => some <$> safeGitToken value label

def gitUiRebase (params : Params) : Http GitCall := do
  let body : GitUiRebaseRequest ← jsonBody params
  if body.confirmation ≠ some "rebase selected" then
    badRequest "rebase requires typed confirmation"
  else
    let upstream ← orBadRequest (safeGitToken body.upstream "upstream")
    let onto ← orBadRequest (optionalToken body.onto "onto")
    return .rebase body.cwd upstream onto (body.pullFirst.getD false)

def gitUiFetch (params : Params) : Http GitCall := do
  let body : GitUiPullPushRequest ← jsonBody params
  let branch ← orBadRequest (optionalToken body.branch "branch")
  return .fetch body.cwd branch

def gitUiPull (params : Params) : Http GitCall := do
  let body : GitUiPullPushRequest ← jsonBody params
  let branch ← orBadRequest (optionalToken body.branch "branch")
  return .pull body.cwd (body.mode.getD "regular") branch

def gitUiPush (params : Params) : Http GitCall := do
  let body : GitUiPullPushRequest ← jsonBody params
  let branch ← orBadRequest (optionalToken body.branch "branch")
  return .push body.cwd (body.mode.getD "regular") branch (body.pullFirst.getD false)
    (body.pushTags.getD false)

def gitUiCommit (params : Params) : Http GitCall := do
  let body : GitUiCommitRequest ← jsonBody params
  let title := trim body.title
  if title = "" then badRequest "commit title is required"
  else return .commit body.cwd title body.body (body.amend.getD false)

def gitUiTag (params : Params) : Http GitCall := do
  let body : GitUiTagRequest ← jsonBody params
  let tagName ← orBadRequest (safeTagName body.tagName)
  let refName ← orBadRequest (safeGitToken body.refName "ref")
  return .tag body.cwd tagName refName

/-- A patch that is there but blank is not looked past. -/
def handlerPatch (env : GitEnv) (body : GitUiApplyPatchRequest) : Http String :=
  match body.patch with
  | some patch => if trim patch = "" then badRequest "patch is required" else pure patch
  | none => do
      let some patch ← (chunkPatch env body).mapError (HttpError.mk 400)
        | badRequest "patch or chunk selector (file, chunk_index) is required"
      return patch

def gitUiApplyPatch (env : GitEnv) (params : Params) : Http GitCall := do
  let body : GitUiApplyPatchRequest ← jsonBody params
  let patch ← handlerPatch env body
  return .applyPatch body.cwd patch (body.reverse.getD false) (body.cached.getD false)

def gitUiConflictResolve (params : Params) : Http GitCall := do
  let body : GitUiConflictResolveRequest ← jsonBody params
  let path ← orBadRequest (safeRepoPath body.path)
  return .conflictResolve body.cwd path body.mode body.content

def gitUiConflictAction (params : Params) : Http GitCall := do
  let body : GitUiConflictActionRequest ← jsonBody params
  let some args := conflictActionArgs body.action | badRequest "invalid conflict action"
  return .conflictAction body.cwd args

def gitUiCleanupScan (params : Params) : Http GitCall := do
  let query : GitUiCleanupQuery ← queryString params
  let some root := query.root.or query.cwd | badRequest "root is required"
  return .cleanupScan root

def gitUiWorktreeRemove (params : Params) : Http GitCall := do
  let body : GitUiWorktreeRemoveRequest ← jsonBody params
  if !body.confirmed.getD false then badRequest "worktree removal requires confirmation"
  else return .worktreeRemove body.cwd body.path (body.force.getD false)

def pruneArgs (dryRun : Bool) : List String :=
  ["worktree", "prune", "--verbose"] ++ if dryRun then ["--dry-run"] else []

def gitUiWorktreePrune (params : Params) : Http GitCall := do
  let body : GitUiWorktreePruneRequest ← jsonBody params
  let args := pruneArgs (body.dryRun.getD false)
  match body.expire with
  | none => return .worktreePrune body.cwd args
  | some expire => do
      let validated ← orBadRequest (safeGitToken expire "expire")
      return .worktreePrune body.cwd (args ++ ["--expire", validated])

def httpHandler (env : GitEnv) : Operation → Params → Http GitCall
  | .status => gitUiStatus
  | .railStatus => gitUiRailStatus
  | .diff => gitUiDiff env
  | .compare => gitUiCompare env
  | .branches => gitUiBranches
  | .branchDelete => gitUiBranchDelete
  | .switch => gitUiSwitch
  | .log => gitUiLog
  | .pathInfo => gitUiPathInfo
  | .permalink => gitUiPermalink
  | .blame => gitUiBlame
  | .file => gitUiFile
  | .fileWrite => gitUiWriteFile
  | .fileHistory => gitUiFileHistory
  | .stashes => gitUiStashes
  | .stashShow => gitUiStashShow
  | .conflicts => gitUiConflicts
  | .stage => gitUiStage
  | .unstage => gitUiUnstage
  | .discard => gitUiDiscard
  | .stash => gitUiStash
  | .stashApply => gitUiStashApply
  | .stashDrop => gitUiStashDrop
  | .reset => gitUiReset
  | .rebase => gitUiRebase
  | .fetch => gitUiFetch
  | .pull => gitUiPull
  | .push => gitUiPush
  | .commit => gitUiCommit
  | .tag => gitUiTag
  | .applyPatch => gitUiApplyPatch env
  | .conflictResolve => gitUiConflictResolve
  | .conflictAction => gitUiConflictAction
  | .cleanupScan => gitUiCleanupScan
  | .worktreeRemove => gitUiWorktreeRemove
  | .worktreePrune => gitUiWorktreePrune

abbrev Socket := Logged GitProcess String

def decode {α : Type} [Deserialize α] (params : Params) : Socket α :=
  .ofExcept ((fromParams params).mapError fun err => s!"invalid parameters: {err}")

def optionalCwd (params : Params) : Socket String := do
  let query : GitUiCwdQuery ← decode params
  let some cwd := query.cwd | .fail "cwd is required"
  return cwd

def socketBranchToken (value : Option String) : Except String (Option String) :=
  match (value.map trim).filter (· ≠ "") with
  | some value => some <$> safeGitToken value "branch"
  | none => .ok none

/-- Without a directory the diff goes on with the empty name. -/
def socketDiff (env : GitEnv) (params : Params) (compare : Bool) : Socket GitCall := do
  let query : GitUiDiffQuery ← decode params
  let args ← .ofExcept (gitUiDiffArgs query compare)
  let cwd := query.cwd.getD ""
  let text ← (runDiff env cwd args (rootParentBase query compare)).attempt
  match text with
  | .ok text => return .diffFiles text query.layout query.q
  | .error err => if isNotGitRepository err then return .noFiles else .fail err

def socketLog (params : Params) : Socket GitCall := do
  let query : GitUiLogQuery ← decode params
  let some cwd := query.cwd | .fail "cwd is required"
  let limit := clamp 1 2000 (query.max.getD 80)
  let scope ← .ofExcept (GitLogScope.fromQuery query.scope (query.all.getD false))
  return .log cwd limit scope query.base query.file

def socketPatch (env : GitEnv) (body : GitUiApplyPatchRequest) : Socket String :=
  match body.patch.filter fun patch => trim patch ≠ "" with
  | some patch => pure patch
  | none => do
      let some patch ← chunkPatch env body
        | .fail "patch or chunk selector (file, chunk_index) is required"
      return patch

def socketArm (env : GitEnv) (params : Params) : Operation → Socket GitCall
  | .status => do
      let cwd ← optionalCwd params
      return .status cwd
  | .railStatus => do
      let body : GitUiRailStatusRequest ← decode params
      return .railStatus body.workspaces
  | .diff => socketDiff env params false
  | .compare => socketDiff env params true
  | .branches => do
      let cwd ← optionalCwd params
      return .branches cwd
  | .branchDelete => do
      let body : GitUiBranchDeleteRequest ← decode params
      if !body.confirmed.getD false then .fail "branch deletion requires confirmation"
      else
        let branch ← .ofExcept (safeGitToken body.branch "branch")
        return .branchDelete body.cwd branch (body.force.getD false)
  | .switch => do
      let body : GitUiSwitchRequest ← decode params
      let branch ← .ofExcept (safeGitToken body.branch "branch")
      if branch = "" then .fail "branch is required"
      else if body.create.getD false then
        let base ← .ofExcept (safeGitToken (body.base.getD "HEAD") "base")
        return .switch body.cwd ["switch", "-c", branch, base]
      else return .switch body.cwd ["switch", branch]
  | .log => socketLog params
  | .pathInfo => do
      let body : GitUiPathInfoQuery ← decode params
      return .pathInfo body.cwd body.path
  | .permalink => do
      let body : GitUiPermalinkQuery ← decode params
      return .permalink body.cwd body.path
  | .blame => do
      let body : GitUiBlameQuery ← decode params
      let (some cwd, some file) := (body.cwd, body.file) | .fail "cwd and file are required"
      let file ← .ofExcept (safeRepoPath file)
      let refName ← .ofExcept (safeGitToken (body.refName.getD "working") "ref")
      return .blame cwd file refName
  | .file => do
      let body : GitUiFileQuery ← decode params
      let (some cwd, some file) := (body.cwd, body.file) | .fail "cwd and file are required"
      let file ← .ofExcept (safeRepoPath file)
      return .file cwd file body.refName
  | .fileWrite => do
      let body : GitUiWriteFileRequest ← decode params
      let path ← .ofExcept (safeRepoPath body.path)
      return .writeFile body.cwd path body.content body.expectedHash
  | .fileHistory => do
      let body : GitUiFileHistoryQuery ← decode params
      let (some cwd, some file) := (body.cwd, body.file) | .fail "cwd and file are required"
      let file ← .ofExcept (safeRepoPath file)
      return .fileHistory cwd file
  | .stashes => do
      let cwd ← optionalCwd params
      return .stashes cwd
  | .stashShow => do
      let body : GitUiStashShowQuery ← decode params
      let some cwd := body.cwd | .fail "cwd is required"
      let stash ← .ofExcept (safeGitToken (body.stash.getD "stash@\x7b0\x7d") "stash")
      return .stashShow cwd stash (body.context.getD 3) body.layout body.q
  | .conflicts => do
      let cwd ← optionalCwd params
      return .conflicts cwd
  | .stage => do
      let body : GitUiPathsRequest ← decode params
      let paths ← .ofExcept (gitUiPaths body)
      return .stage body.cwd paths
  | .unstage => do
      let body : GitUiPathsRequest ← decode params
      let paths ← .ofExcept (gitUiPaths body)
      return .unstage body.cwd paths
  | .discard => do
      let body : GitUiPathsRequest ← decode params
      if !body.confirmed.getD false then .fail "discard requires confirmation"
      else
        let paths ← .ofExcept (gitUiPaths body)
        return .discard body.cwd paths
  | .stash => do
      let body : GitUiStashPushRequest ← decode params
      let msg := body.message.getD "herdr-webui stash"
      let safePaths : Option (List String) ←
        match body.paths with
        | none | some [] => pure none
        | some paths => do
            let safe ← .ofExcept (paths.mapM safeRepoPath)
            pure (some safe)
      return .stash body.cwd msg safePaths
  | .stashApply => do
      let body : GitUiStashApplyRequest ← decode params
      let stash ← .ofExcept (safeGitToken (body.stash.getD "stash@\x7b0\x7d") "stash")
      return .stashApply body.cwd stash (body.pop.getD false)
  | .stashDrop => do
      let body : GitUiStashDropRequest ← decode params
      if !body.confirmed.getD false then .fail "stash drop requires confirmation"
      else
        let stash ← .ofExcept (safeGitToken (body.stash.getD "stash@\x7b0\x7d") "stash")
        return .stashDrop body.cwd stash
  | .reset => do
      let body : GitUiResetRequest ← decode params
      let some mode := resetMode body.mode | .fail "invalid reset mode"
      if mode = "--hard" ∧ body.confirmation ≠ some "reset hard" then
        .fail "hard reset requires typed confirmation"
      else
        let refName ← .ofExcept (safeGitToken body.refName "ref")
        return .reset body.cwd mode refName
  | .rebase => do
      let body : GitUiRebaseRequest ← decode params
      if body.confirmation ≠ some "rebase selected" then
        .fail "rebase requires typed confirmation"
      else
        let upstream ← .ofExcept (safeGitToken body.upstream "upstream")
        let onto ← .ofExcept (optionalToken body.onto "onto")
        return .rebase body.cwd upstream onto (body.pullFirst.getD false)
  | .fetch => do
      let body : GitUiPullPushRequest ← decode params
      let branch ← .ofExcept (socketBranchToken body.branch)
      return .fetch body.cwd branch
  | .pull => do
      let body : GitUiPullPushRequest ← decode params
      let branch ← .ofExcept (socketBranchToken body.branch)
      return .pull body.cwd (body.mode.getD "regular") branch
  | .push => do
      let body : GitUiPullPushRequest ← decode params
      let branch ← .ofExcept (socketBranchToken body.branch)
      return .push body.cwd (body.mode.getD "regular") branch (body.pullFirst.getD false)
        (body.pushTags.getD false)
  | .commit => do
      let body : GitUiCommitRequest ← decode params
      let title := trim body.title
      if title = "" then .fail "commit title is required"
      else return .commit body.cwd title body.body (body.amend.getD false)
  | .tag => do
      let body : GitUiTagRequest ← decode params
      let tagName ← .ofExcept (safeTagName body.tagName)
      let refName ← .ofExcept (safeGitToken body.refName "ref")
      return .tag body.cwd tagName refName
  | .applyPatch => do
      let body : GitUiApplyPatchRequest ← decode params
      let patch ← socketPatch env body
      return .applyPatch body.cwd patch (body.reverse.getD false) (body.cached.getD false)
  | .conflictResolve => do
      let body : GitUiConflictResolveRequest ← decode params
      let path ← .ofExcept (safeRepoPath body.path)
      return .conflictResolve body.cwd path body.mode body.content
  | .conflictAction => do
      let body : GitUiConflictActionRequest ← decode params
      let some args := conflictActionArgs body.action | .fail "invalid conflict action"
      return .conflictAction body.cwd args
  | .cleanupScan => do
      let body : GitUiCleanupQuery ← decode params
      let some root := body.root.or body.cwd | .fail "root is required"
      return .cleanupScan root
  | .worktreeRemove => do
      let body : GitUiWorktreeRemoveRequest ← decode params
      if !body.confirmed.getD false then .fail "worktree removal requires confirmation"
      else return .worktreeRemove body.cwd body.path (body.force.getD false)
  | .worktreePrune => do
      let body : GitUiWorktreePruneRequest ← decode params
      let args := pruneArgs (body.dryRun.getD false)
      match body.expire with
      | none => return .worktreePrune body.cwd args
      | some expire => do
          let validated ← .ofExcept (safeGitToken expire "expire")
          return .worktreePrune body.cwd (args ++ ["--expire", validated])

def socketDispatch (env : GitEnv) (method : String) (params : Params) : Socket GitCall :=
  match Operation.ofMethod method with
  | some op => socketArm env params op
  | none => .fail s!"unknown git-ui method: {method}"

/-- What the HTTP handler does, its errors seen without their status. -/
def httpDispatch (env : GitEnv) (op : Operation) (params : Params) : Socket GitCall :=
  (httpHandler env op params).mapError HttpError.error

@[simp] theorem mapError_badRequest {α : Type} (error : String) :
    (badRequest error : Http α).mapError HttpError.error = .fail error := rfl

@[simp] theorem mapError_orBadRequest {α : Type} (x : Except String α) :
    (orBadRequest x).mapError HttpError.error = .ofExcept x := by
  cases x <;> rfl

theorem agree_jsonBody {α β : Type} [Deserialize α] {params : Params} {k : α → Http β}
    {l : α → Socket β} (h : ∀ body, ((k body).mapError HttpError.error).Agree (l body)) :
    ((jsonBody params >>= k).mapError HttpError.error).Agree (decode params >>= l) :=
  Logged.Agree.ofExcept_bind HttpError.error h

theorem agree_queryString {α β : Type} [Deserialize α] {params : Params} {k : α → Http β}
    {l : α → Socket β} (h : ∀ query, ((k query).mapError HttpError.error).Agree (l query)) :
    ((queryString params >>= k).mapError HttpError.error).Agree (decode params >>= l) :=
  Logged.Agree.ofExcept_bind HttpError.error h

theorem socketBranchToken_eq (value : Option String) :
    socketBranchToken value = optionalToken value "branch" := by
  cases value with
  | none => rfl
  | some value =>
    unfold socketBranchToken optionalToken
    by_cases hblank : trim value = ""
    · simp [Option.filter, hblank]
    · simp [Option.filter, hblank, safeGitToken_trim]

theorem agree_cwdHandler (call : String → GitCall) (params : Params) :
    ((cwdHandler call params).mapError HttpError.error).Agree
      (do let cwd ← optionalCwd params; return call cwd) := by
  unfold cwdHandler optionalCwd
  rw [Logged.bind_assoc]
  apply agree_queryString
  intro query
  cases query.cwd with
  | none => exact .refl _
  | some cwd => exact .refl _

/-- Without a directory the socket gets no further than the handler: nothing is run in a
directory without a name. -/
theorem agree_diffCommon (env : GitEnv) (params : Params) (compare : Bool) :
    ((do gitUiDiffCommon env (← queryString params) compare : Http GitCall).mapError
        HttpError.error).Agree (socketDiff env params compare) := by
  apply agree_queryString
  intro query
  unfold gitUiDiffCommon
  cases hcwd : query.cwd with
  | none =>
    refine .of_refused (.fail _) ?_
    cases hargs : gitUiDiffArgs query compare with
    | error err => exact .fail _
    | ok args =>
      have hrun : runDiff env "" args (rootParentBase query compare) =
          .fail "invalid repository path" := runDiff_of_error (safeGitToken_empty _)
      have hmessage : isNotGitRepository "invalid repository path" = false := by
        decide +kernel
      simp only [Logged.ofExcept_ok, Logged.pure_bind, Option.getD_none, hrun,
        Logged.attempt_fail, hmessage, Bool.false_eq_true, if_false]
      exact .fail _
  | some cwd =>
    refine .of_eq ?_
    simp only [Logged.mapError_bind, mapError_orBadRequest, Logged.mapError_attempt,
      Option.getD_some]
    congr 1
    funext args
    congr 1
    funext text
    cases text with
    | error err => simp
    | ok text => rfl

section
variable (env : GitEnv) (params : Params)

theorem httpDispatch_agree {op : Operation} (hop : op ≠ .applyPatch) :
    (httpDispatch env op params).Agree (socketArm env params op) := by
  cases op with
  | status => exact agree_cwdHandler .status params
  | branches => exact agree_cwdHandler .branches params
  | stashes => exact agree_cwdHandler .stashes params
  | conflicts => exact agree_cwdHandler .conflicts params
  | diff => exact agree_diffCommon env params false
  | compare => exact agree_diffCommon env params true
  | railStatus | branchDelete | switch | fileWrite | stage | unstage | discard | stashApply
  | stashDrop | rebase | commit | tag | conflictResolve | worktreeRemove =>
    exact agree_jsonBody fun body => .of_eq (by simp)
  | fetch | pull | push =>
    exact agree_jsonBody fun body => .of_eq (by simp [socketBranchToken_eq])
  | pathInfo | permalink => exact agree_queryString fun query => .refl _
  | stash =>
    refine agree_jsonBody fun body => .of_eq ?_
    match body.paths with
    | none | some [] => rfl
    | some (path :: paths) => simp
  | reset =>
    refine agree_jsonBody fun body => .of_eq ?_
    cases resetMode body.mode with
    | none => rfl
    | some mode => simp
  | conflictAction =>
    refine agree_jsonBody fun body => .of_eq ?_
    cases conflictActionArgs body.action <;> rfl
  | worktreePrune =>
    refine agree_jsonBody fun body => .of_eq ?_
    cases body.expire with
    | none => rfl
    | some expire => simp
  | log =>
    refine agree_queryString fun query => .of_eq ?_
    cases query.cwd with
    | none => rfl
    | some cwd => simp
  | stashShow =>
    refine agree_queryString fun query => .of_eq ?_
    cases query.cwd with
    | none => rfl
    | some cwd => simp
  | blame | file | fileHistory =>
    refine agree_queryString fun query => .of_eq ?_
    cases query.cwd with
    | none => rfl
    | some cwd =>
      cases query.file with
      | none => rfl
      | some file => simp
  | cleanupScan =>
    refine agree_queryString fun query => .of_eq ?_
    cases query.root.or query.cwd <;> rfl
  | applyPatch => exact absurd rfl hop

/-- The two choices of a patch part exactly where a blank one stands beside the
selector of a chunk. -/
theorem agree_patch_iff (body : GitUiApplyPatchRequest) :
    ((handlerPatch env body).mapError HttpError.error).Agree (socketPatch env body) ↔
      ¬ (body.patch.any (trim · = "") ∧ startsChunkDiff body) := by
  cases hpatch : body.patch with
  | none =>
    have hsame : (handlerPatch env body).mapError HttpError.error = socketPatch env body := by
      simp only [handlerPatch, socketPatch, hpatch, Option.filter_none, Logged.mapError_bind,
        Logged.mapError_mapError, Function.comp_def, Logged.mapError_self]
      congr 1
      funext chunk
      cases chunk <;> rfl
    simp [hsame, Logged.Agree.refl]
  | some patch =>
    by_cases hblank : trim patch = ""
    · have hhandler : (handlerPatch env body).mapError HttpError.error =
          .fail "patch is required" := by
        simp [handlerPatch, hpatch, hblank]
      have hsocket : socketPatch env body = (do
          let some patch ← chunkPatch env body
            | .fail "patch or chunk selector (file, chunk_index) is required"
          return patch) := by
        simp [socketPatch, hpatch, hblank, Option.filter]
      rw [hhandler, Logged.agree_iff_of_refused (.fail _), hsocket]
      cases hstarts : startsChunkDiff body with
      | true =>
        refine iff_of_false ?_ (by simp [hblank])
        exact Logged.not_refused_of_log (Logged.bind_log_ne_nil (chunkPatch_log_ne_nil hstarts))
      | false =>
        simp only [Bool.false_eq_true, and_false, not_false_iff, iff_true]
        obtain hnone | ⟨err, hfail⟩ := chunkPatch_of_not_starts hstarts
        · rw [hnone]
          exact .fail _
        · rw [hfail]
          exact .fail _
    · simp [handlerPatch, socketPatch, hpatch, hblank, Option.filter, Logged.Agree.refl]

/-- A request to apply a patch that is there but blank, with the selector of a chunk that
a diff can be asked for. -/
def blankPatchOfChunk (params : Params) : Prop :=
  ∃ body : GitUiApplyPatchRequest, fromParams params = .ok body ∧
    body.patch.any (trim · = "") ∧ startsChunkDiff body

theorem agree_applyPatch_iff :
    (httpDispatch env .applyPatch params).Agree (socketArm env params .applyPatch) ↔
      ¬ blankPatchOfChunk params := by
  unfold blankPatchOfChunk
  simp only [httpDispatch, httpHandler, gitUiApplyPatch, socketArm, jsonBody, decode]
  cases hbody : (fromParams params : Except String GitUiApplyPatchRequest) with
  | error err => simp [Except.mapError, Logged.Agree.of_refused (.fail _) (.fail _)]
  | ok body =>
    have hinj : Function.Injective fun patch => GitCall.applyPatch body.cwd patch
        (body.reverse.getD false) (body.cached.getD false) := by
      intro patch patch' h
      exact (GitCall.applyPatch.inj h).2.1
    simpa [Except.mapError, Logged.agree_bind_pure_iff hinj] using agree_patch_iff env body

/-- For every operation and every parameter object the two transports agree, except on a
blank patch beside the selector of a chunk: the handler refuses it, and the socket goes on
to the chunk. -/
theorem transports_agree_iff (op : Operation) :
    (httpDispatch env op params).Agree (socketDispatch env op.method params) ↔
      ¬ (op = .applyPatch ∧ blankPatchOfChunk params) := by
  have hdispatch : socketDispatch env op.method params = socketArm env params op := by
    rw [socketDispatch, Operation.ofMethod_method]
  rw [hdispatch]
  by_cases hop : op = .applyPatch
  · subst hop
    simpa using agree_applyPatch_iff env params
  · simp [hop, httpDispatch_agree env params hop]

end

/-- A git that knows one repository with one changed line in one file. -/
def oneChange : GitEnv where
  home := none
  output process :=
    if process.args.head? = some "diff" then
      .ok ⟨true, "exit status: 0",
        "diff --git a/a.txt b/a.txt\n--- a/a.txt\n+++ b/a.txt\n@@ -1 +1 @@\n-a\n+b\n", ""⟩
    else .ok ⟨true, "exit status: 0", "/r\n", ""⟩

/-- A blank patch, and the first chunk of that file. -/
def blankPatch : Params :=
  { cwd := some "/r", patch := some " ", file := some "a.txt", chunkIndex := some 0 }

/-- The handler answers without running git, and the socket applies the chunk. -/
theorem blank_patch_drifts :
    httpDispatch oneChange .applyPatch blankPatch = .fail "patch is required" ∧
      (socketDispatch oneChange "git.apply_patch" blankPatch).result = .ok (.applyPatch "/r"
        "diff --git a/a.txt b/a.txt\n--- a/a.txt\n+++ b/a.txt\n@@ -1 +1 @@\n-a\n+b\n" false false) ∧
      ¬ ∀ (env : GitEnv) (op : Operation) (params : Params),
        (httpDispatch env op params).Agree (socketDispatch env op.method params) := by
  have hhandler : httpDispatch oneChange .applyPatch blankPatch = .fail "patch is required" := by
    decide +kernel
  have hsocket : (socketDispatch oneChange "git.apply_patch" blankPatch).result =
      .ok (.applyPatch "/r"
        "diff --git a/a.txt b/a.txt\n--- a/a.txt\n+++ b/a.txt\n@@ -1 +1 @@\n-a\n+b\n"
        false false) := by
    decide +kernel
  refine ⟨hhandler, hsocket, fun hall => ?_⟩
  have hagree := hall oneChange .applyPatch blankPatch
  rw [hhandler, Logged.agree_iff_of_refused (.fail _)] at hagree
  obtain ⟨-, err, herr⟩ := hagree
  rw [show Operation.applyPatch.method = "git.apply_patch" from rfl, hsocket] at herr
  cases herr

end HerdrWebui.Git
