import HerdrWebui.Git.Tokens

/-!
The requests of the git interface. A parameter object is given by its fields at the
types they are read at, each of them present or not; a request takes the fields it knows
and is refused where one it needs is missing. What a request is checked for, and the
arguments that are made of it, end in the call of a blocking operation.
-/

namespace HerdrWebui.Git

structure GitUiRailStatusItem where
  workspaceId : Option String
  cwd : String
deriving DecidableEq, Repr

structure Params where
  cwd : Option String := none
  path : Option String := none
  branch : Option String := none
  base : Option String := none
  file : Option String := none
  scope : Option String := none
  target : Option String := none
  refName : Option String := none
  stash : Option String := none
  message : Option String := none
  mode : Option String := none
  confirmation : Option String := none
  upstream : Option String := none
  onto : Option String := none
  title : Option String := none
  body : Option String := none
  tagName : Option String := none
  patch : Option String := none
  content : Option String := none
  expectedHash : Option String := none
  action : Option String := none
  root : Option String := none
  expire : Option String := none
  layout : Option String := none
  q : Option String := none
  paths : Option (List String) := none
  workspaces : Option (List GitUiRailStatusItem) := none
  confirmed : Option Bool := none
  force : Option Bool := none
  create : Option Bool := none
  all : Option Bool := none
  pop : Option Bool := none
  pullFirst : Option Bool := none
  pushTags : Option Bool := none
  amend : Option Bool := none
  reverse : Option Bool := none
  cached : Option Bool := none
  mergeBase : Option Bool := none
  dryRun : Option Bool := none
  max : Option Nat := none
  context : Option Nat := none
  chunkIndex : Option Nat := none

def required {α : Type} (name : String) : Option α → Except String α
  | some value => .ok value
  | none => .error s!"missing field `{name}`"

/-- A request that can be read from a parameter object. -/
class Deserialize (α : Type) where
  fromParams : Params → Except String α

export Deserialize (fromParams)

structure GitUiCwdQuery where
  cwd : Option String

instance : Deserialize GitUiCwdQuery where
  fromParams params := .ok { cwd := params.cwd }

structure GitUiPathInfoQuery where
  cwd : String
  path : String

instance : Deserialize GitUiPathInfoQuery where
  fromParams params := do
    return { cwd := ← required "cwd" params.cwd, path := ← required "path" params.path }

structure GitUiPermalinkQuery where
  cwd : String
  path : String

instance : Deserialize GitUiPermalinkQuery where
  fromParams params := do
    return { cwd := ← required "cwd" params.cwd, path := ← required "path" params.path }

structure GitUiPathsRequest where
  cwd : String
  paths : List String
  confirmed : Option Bool

instance : Deserialize GitUiPathsRequest where
  fromParams params := do
    return {
      cwd := ← required "cwd" params.cwd, paths := ← required "paths" params.paths,
      confirmed := params.confirmed }

structure GitUiRailStatusRequest where
  workspaces : List GitUiRailStatusItem

instance : Deserialize GitUiRailStatusRequest where
  fromParams params := do
    return { workspaces := ← required "workspaces" params.workspaces }

structure GitUiDiffQuery where
  cwd : Option String
  scope : Option String
  file : Option String
  base : Option String
  target : Option String
  mergeBase : Option Bool
  context : Option Nat
  layout : Option String
  q : Option String

instance : Deserialize GitUiDiffQuery where
  fromParams params := .ok {
    cwd := params.cwd, scope := params.scope, file := params.file, base := params.base,
    target := params.target, mergeBase := params.mergeBase, context := params.context,
    layout := params.layout, q := params.q }

structure GitUiSwitchRequest where
  cwd : String
  branch : String
  create : Option Bool
  base : Option String

instance : Deserialize GitUiSwitchRequest where
  fromParams params := do
    return {
      cwd := ← required "cwd" params.cwd, branch := ← required "branch" params.branch,
      create := params.create, base := params.base }

structure GitUiBranchDeleteRequest where
  cwd : String
  branch : String
  force : Option Bool
  confirmed : Option Bool

instance : Deserialize GitUiBranchDeleteRequest where
  fromParams params := do
    return {
      cwd := ← required "cwd" params.cwd, branch := ← required "branch" params.branch,
      force := params.force, confirmed := params.confirmed }

structure GitUiLogQuery where
  cwd : Option String
  max : Option Nat
  all : Option Bool
  scope : Option String
  base : Option String
  file : Option String

instance : Deserialize GitUiLogQuery where
  fromParams params := .ok {
    cwd := params.cwd, max := params.max, all := params.all, scope := params.scope,
    base := params.base, file := params.file }

structure GitUiBlameQuery where
  cwd : Option String
  file : Option String
  refName : Option String

instance : Deserialize GitUiBlameQuery where
  fromParams params :=
    .ok { cwd := params.cwd, file := params.file, refName := params.refName }

structure GitUiFileQuery where
  cwd : Option String
  file : Option String
  refName : Option String

instance : Deserialize GitUiFileQuery where
  fromParams params :=
    .ok { cwd := params.cwd, file := params.file, refName := params.refName }

structure GitUiFileHistoryQuery where
  cwd : Option String
  file : Option String

instance : Deserialize GitUiFileHistoryQuery where
  fromParams params := .ok { cwd := params.cwd, file := params.file }

structure GitUiWriteFileRequest where
  cwd : String
  path : String
  content : String
  expectedHash : Option String

instance : Deserialize GitUiWriteFileRequest where
  fromParams params := do
    return {
      cwd := ← required "cwd" params.cwd, path := ← required "path" params.path,
      content := ← required "content" params.content, expectedHash := params.expectedHash }

structure GitUiStashShowQuery where
  cwd : Option String
  stash : Option String
  context : Option Nat
  layout : Option String
  q : Option String

instance : Deserialize GitUiStashShowQuery where
  fromParams params := .ok {
    cwd := params.cwd, stash := params.stash, context := params.context,
    layout := params.layout, q := params.q }

structure GitUiStashPushRequest where
  cwd : String
  message : Option String
  paths : Option (List String)

instance : Deserialize GitUiStashPushRequest where
  fromParams params := do
    return {
      cwd := ← required "cwd" params.cwd, message := params.message, paths := params.paths }

structure GitUiStashApplyRequest where
  cwd : String
  stash : Option String
  pop : Option Bool

instance : Deserialize GitUiStashApplyRequest where
  fromParams params := do
    return { cwd := ← required "cwd" params.cwd, stash := params.stash, pop := params.pop }

structure GitUiStashDropRequest where
  cwd : String
  stash : Option String
  confirmed : Option Bool

instance : Deserialize GitUiStashDropRequest where
  fromParams params := do
    return {
      cwd := ← required "cwd" params.cwd, stash := params.stash,
      confirmed := params.confirmed }

structure GitUiResetRequest where
  cwd : String
  mode : String
  refName : String
  confirmation : Option String

instance : Deserialize GitUiResetRequest where
  fromParams params := do
    return {
      cwd := ← required "cwd" params.cwd, mode := ← required "mode" params.mode,
      refName := ← required "ref_name" params.refName, confirmation := params.confirmation }

structure GitUiRebaseRequest where
  cwd : String
  upstream : String
  onto : Option String
  pullFirst : Option Bool
  confirmation : Option String

instance : Deserialize GitUiRebaseRequest where
  fromParams params := do
    return {
      cwd := ← required "cwd" params.cwd,
      upstream := ← required "upstream" params.upstream, onto := params.onto,
      pullFirst := params.pullFirst, confirmation := params.confirmation }

structure GitUiCommitRequest where
  cwd : String
  title : String
  body : Option String
  amend : Option Bool

instance : Deserialize GitUiCommitRequest where
  fromParams params := do
    return {
      cwd := ← required "cwd" params.cwd, title := ← required "title" params.title,
      body := params.body, amend := params.amend }

structure GitUiTagRequest where
  cwd : String
  tagName : String
  refName : String

instance : Deserialize GitUiTagRequest where
  fromParams params := do
    return {
      cwd := ← required "cwd" params.cwd, tagName := ← required "tag_name" params.tagName,
      refName := ← required "ref_name" params.refName }

structure GitUiPullPushRequest where
  cwd : String
  mode : Option String
  branch : Option String
  pullFirst : Option Bool
  pushTags : Option Bool

instance : Deserialize GitUiPullPushRequest where
  fromParams params := do
    return {
      cwd := ← required "cwd" params.cwd, mode := params.mode, branch := params.branch,
      pullFirst := params.pullFirst, pushTags := params.pushTags }

structure GitUiApplyPatchRequest where
  cwd : String
  patch : Option String
  reverse : Option Bool
  cached : Option Bool
  scope : Option String
  context : Option Nat
  base : Option String
  target : Option String
  file : Option String
  chunkIndex : Option Nat
  mergeBase : Option Bool

instance : Deserialize GitUiApplyPatchRequest where
  fromParams params := do
    return {
      cwd := ← required "cwd" params.cwd, patch := params.patch, reverse := params.reverse,
      cached := params.cached, scope := params.scope, context := params.context,
      base := params.base, target := params.target, file := params.file,
      chunkIndex := params.chunkIndex, mergeBase := params.mergeBase }

structure GitUiConflictResolveRequest where
  cwd : String
  path : String
  mode : String
  content : Option String

instance : Deserialize GitUiConflictResolveRequest where
  fromParams params := do
    return {
      cwd := ← required "cwd" params.cwd, path := ← required "path" params.path,
      mode := ← required "mode" params.mode, content := params.content }

structure GitUiConflictActionRequest where
  cwd : String
  action : String

instance : Deserialize GitUiConflictActionRequest where
  fromParams params := do
    return {
      cwd := ← required "cwd" params.cwd, action := ← required "action" params.action }

structure GitUiCleanupQuery where
  root : Option String
  cwd : Option String

instance : Deserialize GitUiCleanupQuery where
  fromParams params := .ok { root := params.root, cwd := params.cwd }

structure GitUiWorktreeRemoveRequest where
  cwd : String
  path : String
  force : Option Bool
  confirmed : Option Bool

instance : Deserialize GitUiWorktreeRemoveRequest where
  fromParams params := do
    return {
      cwd := ← required "cwd" params.cwd, path := ← required "path" params.path,
      force := params.force, confirmed := params.confirmed }

structure GitUiWorktreePruneRequest where
  cwd : String
  dryRun : Option Bool
  expire : Option String

instance : Deserialize GitUiWorktreePruneRequest where
  fromParams params := do
    return {
      cwd := ← required "cwd" params.cwd, dryRun := params.dryRun, expire := params.expire }

def safeRepoPath (path : String) : Except String String :=
  let trimmed := trim path
  if trimmed = "" ∨ trimmed.toList.head? = some '/' ∨
      (trimmed.toList.splitOn '/').contains "..".toList ∨
      trimmed.toList.contains (Char.ofNat 0) then
    .error "invalid repository path"
  else .ok trimmed

def gitUiPaths (body : GitUiPathsRequest) : Except String (List String) :=
  if body.paths = [] then .error "paths are required"
  else body.paths.mapM safeRepoPath

inductive GitLogScope where
  | all
  | baseCurrent
  | base
deriving DecidableEq, Repr

def GitLogScope.fromQuery (scope : Option String) (all : Bool) : Except String GitLogScope :=
  match scope.getD (if all then "all" else "base-current") with
  | "all" => .ok .all
  | "base-current" => .ok .baseCurrent
  | "base" => .ok .base
  | other => .error s!"unsupported git log scope: {other}"

def safeTagName (value : String) : Except String String := do
  let tag ← safeGitToken value "tag"
  if tag.toList.any isWhitespace then .error "invalid tag" else .ok tag

def conflictActionArgs : String → Option (List String)
  | "merge-abort" => some ["merge", "--abort"]
  | "merge-continue" => some ["merge", "--continue"]
  | "rebase-continue" => some ["rebase", "--continue"]
  | "rebase-skip" => some ["rebase", "--skip"]
  | "rebase-abort" => some ["rebase", "--abort"]
  | "cherry-pick-continue" => some ["cherry-pick", "--continue"]
  | "cherry-pick-abort" => some ["cherry-pick", "--abort"]
  | _ => none

/-- `Ord::clamp`. -/
def clamp (low high n : Nat) : Nat := max low (min high n)

def gitUiDiffArgs (query : GitUiDiffQuery) (compare : Bool) : Except String (List String) := do
  let context := toString (clamp 0 200 (query.context.getD 3))
  let args := ["diff", "--no-ext-diff", "--color=never", s!"-U{context}"]
  let args ←
    if compare then do
      let base ← safeGitToken (query.base.getD "HEAD") "base ref"
      let target ← safeGitToken (query.target.getD ".") "target ref"
      pure (args ++ (if query.mergeBase.getD false then ["--merge-base"] else []) ++ [base, target])
    else
      match query.scope.getD "all" with
      | "staged" => pure (args ++ ["--cached"])
      | "working" => pure args
      | _ => pure (args ++ ["HEAD"])
  match query.file with
  | none => return args
  | some file => return args ++ ["--", ← safeRepoPath file]

/-- The operation a request ends in, with its arguments. The last two stand for the
answer of a diff that has been run already: the text that is parsed for it, or none
outside of a repository. -/
inductive GitCall where
  | status (cwd : String)
  | railStatus (workspaces : List GitUiRailStatusItem)
  | branches (cwd : String)
  | branchDelete (cwd branch : String) (force : Bool)
  | switch (cwd : String) (args : List String)
  | log (cwd : String) (limit : Nat) (scope : GitLogScope) (base file : Option String)
  | pathInfo (cwd path : String)
  | permalink (cwd path : String)
  | blame (cwd file refName : String)
  | file (cwd file : String) (refName : Option String)
  | writeFile (cwd path content : String) (expectedHash : Option String)
  | fileHistory (cwd file : String)
  | stashes (cwd : String)
  | stashShow (cwd stash : String) (context : Nat) (layout q : Option String)
  | conflicts (cwd : String)
  | stage (cwd : String) (paths : List String)
  | unstage (cwd : String) (paths : List String)
  | discard (cwd : String) (paths : List String)
  | stash (cwd msg : String) (safePaths : Option (List String))
  | stashApply (cwd stash : String) (pop : Bool)
  | stashDrop (cwd stash : String)
  | reset (cwd mode refName : String)
  | rebase (cwd upstream : String) (onto : Option String) (pullFirst : Bool)
  | fetch (cwd : String) (branch : Option String)
  | pull (cwd mode : String) (branch : Option String)
  | push (cwd mode : String) (branch : Option String) (pullFirst pushTags : Bool)
  | commit (cwd title : String) (body : Option String) (amend : Bool)
  | tag (cwd tagName refName : String)
  | applyPatch (cwd patch : String) (reverse cached : Bool)
  | conflictResolve (cwd path mode : String) (content : Option String)
  | conflictAction (cwd : String) (args : List String)
  | cleanupScan (root : String)
  | worktreeRemove (cwd path : String) (force : Bool)
  | worktreePrune (cwd : String) (args : List String)
  | diffFiles (text : String) (layout q : Option String)
  | noFiles
deriving DecidableEq, Repr

end HerdrWebui.Git
