import HerdrWebui.Data.Failing
import HerdrWebui.Git.Processes

/-!
The deletion of a branch. Each run of git may change the repository, so the runs are computations
over its state. The current branch is left first, with a switch to the default branch.
-/

namespace HerdrWebui.Git

namespace Repository

/-- A computation of the server that runs git. -/
abbrev GitTask (ρ ε α : Type) := ExceptT ε (StateM ρ) α

section Commands

variable {ρ : Type} (git : GitProcess → GitTask ρ String GitOutput) (home : Option String)

def askGitUiRepo (cwd : String) : GitTask ρ String String := do
  let expanded ← ExceptT.mk (pure (gitUiRepo home cwd))
  let output ← git ⟨expanded, ["rev-parse", "--show-toplevel"]⟩
  if !output.success then throw (gitFailure output "git rev-parse") else return expanded

def gitUiOutput (cwd : String) (args : List String) : GitTask ρ String GitOutput := do
  let repo ← askGitUiRepo git home cwd
  git ⟨repo, args⟩

def gitUiText (cwd : String) (args : List String) : GitTask ρ String String := do
  let output ← gitUiOutput git home cwd args
  if output.success then return output.stdout
  else throw (gitFailure output (args.headD "git"))

end Commands

end Repository

structure LocalBranch where
  name : String
  current : Bool
  upstream : Option String
  pushed : Bool
  deriving DecidableEq

/-- A remote branch under the name it has without its remote. -/
def remoteBranchName (line : String) : Option String :=
  let name := trim line
  if name = "" ∨ hasSuffix "/HEAD" name then none
  else
    match splitn 2 '/' name with
    | [_, branch] => some branch
    | _ => some name

def parseLocalBranch (remoteBranches : List String) (line : String) : Option LocalBranch :=
  let parts := (line.toList.splitOn (Char.ofNat 0)).map String.ofList
  let name := trim (parts.headD "")
  if name = "" then none
  else
    let upstream := (parts[2]?.map trim).filter (· ≠ "")
    some ⟨name, parts[1]? = some "*", upstream, upstream.isSome || remoteBranches.contains name⟩

def remoteBranchesArgs : List String := ["branch", "-r", "--format=%(refname:short)"]

def localBranchesArgs : List String :=
  ["branch", "--format=%(refname:short)%00%(HEAD)%00%(upstream:short)"]

/-- The error of a request, with its status code. -/
structure BranchError where
  status : Nat
  message : String
  deriving DecidableEq

def isDefaultBranch (branch : String) : Bool := branch = "main" || branch = "master"

/-- The branch to switch to before the deletion, if there has to be a switch. -/
def switchTarget (branches : List LocalBranch) (branch : String) :
    Except BranchError (Option String) :=
  match branches.find? (·.name = branch) with
  | none => .error ⟨400, "branch not found"⟩
  | some target =>
    if !target.current then .ok none
    else if isDefaultBranch branch then
      .error ⟨400, "current main/master branch cannot be deleted"⟩
    else
      match (branches.find? (·.name = "main")).or (branches.find? (·.name = "master")) with
      | none =>
        .error ⟨400, "main or master branch is required before deleting the current branch"⟩
      | some default => .ok (some default.name)

def badGateway (message : String) : BranchError := ⟨502, message⟩

namespace Repository

section Deletion

variable {ρ : Type} (git : GitProcess → GitTask ρ String GitOutput) (home : Option String)

/-- Where the remote branches cannot be read there are none. -/
def listLocalBranches (cwd : String) : GitTask ρ String (List LocalBranch) := do
  let remote ← tryCatch (gitUiText git home cwd remoteBranchesArgs) fun _ => return ""
  let remoteBranches := (lines remote).filterMap remoteBranchName
  let text ← gitUiText git home cwd localBranchesArgs
  return (lines text).filterMap (parseLocalBranch remoteBranches)

def maybeSwitchBeforeDelete (cwd branch : String) : GitTask ρ BranchError Unit := do
  let branches ← ExceptT.adapt badGateway (listLocalBranches git home cwd)
  match ← ExceptT.mk (pure (switchTarget branches branch)) with
  | none => return
  | some default =>
    let _ ← ExceptT.adapt badGateway (gitUiText git home cwd ["switch", "--", default])

def deleteFlag (force : Bool) : String := if force then "-D" else "-d"

def deleteBranch (cwd branch : String) (force : Bool) : GitTask ρ BranchError String :=
  ExceptT.adapt badGateway (gitUiText git home cwd ["branch", deleteFlag force, "--", branch])

/-- The message of git, where it was deleted. -/
def gitUiBranchDeleteBlocking (cwd branch : String) (force : Bool) :
    GitTask ρ BranchError String := do
  maybeSwitchBeforeDelete git home cwd branch
  deleteBranch git home cwd branch force

variable {ν : Type} (view : ρ → ν)

/-- A run of git that fails changes nothing that is looked at, and neither does one that asks. -/
structure AtomicGit : Prop where
  failed : ∀ process s, (∀ output, (git process s).1 = .ok output → output.success = false) →
    view (git process s).2 = view s
  asked : ∀ repo, ∀ args ∈ [["rev-parse", "--show-toplevel"], remoteBranchesArgs,
    localBranchesArgs], Keeps view (git ⟨repo, args⟩)

variable {git view} {home : Option String} (hgit : AtomicGit git view)
include hgit

theorem keeps_askGitUiRepo (cwd : String) : Keeps view (askGitUiRepo git home cwd) := by
  apply Keeps.bind fun _ => rfl
  intro expanded
  apply Keeps.bind (hgit.asked expanded _ List.mem_cons_self)
  intro output
  split
  · exact Keeps.throw _
  · exact Keeps.pure _

theorem keeps_gitUiText {args : List String}
    (hargs : args ∈ [remoteBranchesArgs, localBranchesArgs]) (cwd : String) :
    Keeps view (gitUiText git home cwd args) := by
  apply Keeps.bind
  · apply Keeps.bind (keeps_askGitUiRepo hgit cwd)
    exact fun repo => hgit.asked repo args (List.mem_cons_of_mem _ hargs)
  · intro output
    split
    · exact Keeps.pure _
    · exact Keeps.throw _

theorem failsClean_gitUiText (cwd : String) (args : List String) (s : ρ) :
    FailsClean view (gitUiText git home cwd args) s := by
  unfold gitUiText gitUiOutput
  rw [bind_assoc]
  apply FailsClean.bind (keeps_askGitUiRepo hgit cwd)
  intro repo s' _ e he
  rw [run_bind_apply] at he ⊢
  rcases hrun : git ⟨repo, args⟩ s' with ⟨e' | output, s''⟩
  · have hkept := hgit.failed ⟨repo, args⟩ s' (by simp [hrun])
    rwa [hrun] at hkept
  · simp only [hrun] at he ⊢
    split at he
    · cases he
    · next hfailed =>
      have hkept := hgit.failed ⟨repo, args⟩ s' (by simpa [hrun] using hfailed)
      rw [if_neg hfailed]
      rwa [hrun] at hkept

theorem keeps_listLocalBranches (cwd : String) : Keeps view (listLocalBranches git home cwd) := by
  apply Keeps.bind
  · apply Keeps.tryCatch (keeps_gitUiText hgit List.mem_cons_self cwd)
    exact fun _ => Keeps.pure _
  · intro remote
    apply Keeps.bind (keeps_gitUiText hgit (List.mem_cons_of_mem _ List.mem_cons_self) cwd)
    exact fun text => Keeps.pure _

theorem failsClean_maybeSwitchBeforeDelete (cwd branch : String) (s : ρ) :
    FailsClean view (maybeSwitchBeforeDelete git home cwd branch) s := by
  unfold maybeSwitchBeforeDelete
  apply FailsClean.bind ((keeps_listLocalBranches hgit cwd).adapt _)
  intro branches s' _
  apply FailsClean.bind fun _ => rfl
  intro target s'' _
  cases target with
  | none => exact (Keeps.pure ()).failsClean s''
  | some default =>
    have hswitch : FailsClean view (gitUiText git home cwd ["switch", "--", default]) s'' :=
      failsClean_gitUiText hgit cwd _ s''
    apply (failsClean_bind_iff (hswitch.adapt _) fun _ s => (Keeps.pure _).failsClean s).mpr
    intro _ _ _ _ _ herror
    cases herror

omit hgit in
theorem maybeSwitchBeforeDelete_eq_ok {cwd branch : String} {s s' : ρ} :
    maybeSwitchBeforeDelete git home cwd branch s = (.ok (), s') ↔
      ∃ branches s₁, listLocalBranches git home cwd s = (.ok branches, s₁) ∧
        (switchTarget branches branch = .ok none ∧ s₁ = s' ∨
          ∃ default text, switchTarget branches branch = .ok (some default) ∧
            gitUiText git home cwd ["switch", "--", default] s₁ = (.ok text, s')) := by
  unfold maybeSwitchBeforeDelete
  rw [run_bind_eq_ok]
  apply exists_congr
  intro branches
  apply exists_congr
  intro s₁
  rw [adapt_eq_ok]
  apply and_congr_right
  intro _
  rw [run_bind_eq_ok]
  have hmk {target : Option String} {s₂ : ρ} :
      (ExceptT.mk (pure (switchTarget branches branch)) : GitTask ρ BranchError _) s₁ =
        (.ok target, s₂) ↔ switchTarget branches branch = .ok target ∧ s₁ = s₂ :=
    Prod.mk_inj
  simp only [hmk]
  constructor
  · rintro ⟨target, s₂, ⟨htarget, rfl⟩, hrest⟩
    cases target with
    | none => exact .inl ⟨htarget, (Prod.mk.inj hrest).2⟩
    | some default =>
      obtain ⟨text, s₃, hswitch, hlast⟩ := run_bind_eq_ok.mp hrest
      obtain rfl : s₃ = s' := (Prod.mk.inj hlast).2
      exact .inr ⟨default, text, htarget, adapt_eq_ok.mp hswitch⟩
  · rintro (⟨htarget, rfl⟩ | ⟨default, text, htarget, hswitch⟩)
    · exact ⟨none, s₁, ⟨htarget, rfl⟩, rfl⟩
    · refine ⟨some default, s₁, ⟨htarget, rfl⟩, ?_⟩
      exact run_bind_eq_ok.mpr ⟨text, s', adapt_eq_ok.mpr hswitch, rfl⟩

variable (git view home) in
/-- git switched away from the branch, and then does not delete it. -/
def Stranded (cwd branch : String) (force : Bool) (s : ρ) : Prop :=
  ∃ branches s₁ default, listLocalBranches git home cwd s = (.ok branches, s₁) ∧
    switchTarget branches branch = .ok (some default) ∧
      ∃ text s₂, gitUiText git home cwd ["switch", "--", default] s₁ = (.ok text, s₂) ∧
        view s₂ ≠ view s ∧
          ∃ message s₃, gitUiText git home cwd ["branch", deleteFlag force, "--", branch] s₂ =
            (.error message, s₃)

/-- The failures of a deletion change nothing, but for the one after a switch. -/
theorem gitUiBranchDeleteBlocking_clean_iff (cwd branch : String) (force : Bool) (s : ρ) :
    FailsClean view (gitUiBranchDeleteBlocking git home cwd branch force) s ↔
      ¬Stranded git view home cwd branch force s := by
  have hdelete (s' : ρ) : FailsClean view (deleteBranch git home cwd branch force) s' :=
    (failsClean_gitUiText hgit cwd _ s').adapt badGateway
  unfold gitUiBranchDeleteBlocking
  rw [failsClean_bind_iff (failsClean_maybeSwitchBeforeDelete hgit cwd branch s) fun _ => hdelete]
  constructor
  · rintro h ⟨branches, s₁, default, hlist, htarget, text, s₂, hswitch, hmoved, message, s₃, hdel⟩
    apply hmoved
    apply h () s₂ (badGateway message) s₃
    · exact maybeSwitchBeforeDelete_eq_ok.mpr
        ⟨branches, s₁, hlist, .inr ⟨default, text, htarget, hswitch⟩⟩
    · exact adapt_eq_error.mpr ⟨message, hdel, rfl⟩
  · intro h _ s₂ _ s₃ hok herror
    obtain ⟨branches, s₁, hlist, hswitch⟩ := maybeSwitchBeforeDelete_eq_ok.mp hok
    obtain ⟨message, hdel, -⟩ := adapt_eq_error.mp herror
    have hlisted : view s₁ = view s := by
      have hkept : Keeps view (listLocalBranches git home cwd) := keeps_listLocalBranches hgit cwd
      simpa only [hlist] using hkept s
    rcases hswitch with ⟨_, rfl⟩ | ⟨default, text, htarget, hswitch⟩
    · exact hlisted
    · by_contra hmoved
      exact h ⟨branches, s₁, default, hlist, htarget, text, s₂, hswitch, hmoved, message, s₃,
        hdel⟩

end Deletion

/-- What there is to see: HEAD, the branches and the working tree. -/
structure RepositoryView where
  head : String
  branches : List String
  workingTree : List (String × String)
  deriving DecidableEq

/-- The branches are listed with whether they were merged into main. -/
structure ExampleRepo where
  head : String
  branches : List (String × Bool)
  deriving DecidableEq

def ExampleRepo.view (repo : ExampleRepo) : RepositoryView :=
  ⟨repo.head, repo.branches.map (·.1), [("README", repo.head)]⟩

def ExampleRepo.listing (repo : ExampleRepo) : String :=
  String.join (repo.branches.map fun branch => branch.1 ++ String.singleton (Char.ofNat 0) ++
    (if branch.1 = repo.head then "*" else " ") ++ String.singleton (Char.ofNat 0) ++ "\n")

/-- What git prints, and the repository after it; it may refuse. -/
def ExampleRepo.answer (repo : ExampleRepo) : List String → Option (String × ExampleRepo)
  | ["switch", "--", name] =>
    if name ∈ repo.branches.map (·.1) then some ("", { repo with head := name }) else none
  | ["branch", flag, "--", name] =>
    if name ≠ repo.head ∧ (flag = "-D" ∨ (name, true) ∈ repo.branches) then
      some ("", { repo with branches := repo.branches.filter (·.1 ≠ name) })
    else none
  | args => some (if args = localBranchesArgs then repo.listing else "", repo)

def exampleGit (process : GitProcess) : GitTask ExampleRepo String GitOutput := fun repo =>
  match repo.answer process.args with
  | some (stdout, repo') => (.ok ⟨true, "0", stdout, ""⟩, repo')
  | none => (.ok ⟨false, "1", "", "error: refused"⟩, repo)

theorem atomicGit_exampleGit : AtomicGit exampleGit ExampleRepo.view where
  failed := by
    intro process repo h
    unfold exampleGit at h ⊢
    cases hanswer : repo.answer process.args with
    | none => rfl
    | some answer =>
      simp only [hanswer] at h
      exact absurd (h _ rfl) (by simp)
  asked := by
    intro path args hargs repo
    fin_cases hargs <;> rfl

/-- A branch that was merged, and is the current one. -/
theorem gitUiBranchDeleteBlocking_clean_merged :
    FailsClean ExampleRepo.view
        (gitUiBranchDeleteBlocking exampleGit none "/repo" "feature" false)
        ⟨"feature", [("main", true), ("feature", true)]⟩ ↔
      ¬Stranded exampleGit ExampleRepo.view none "/repo" "feature" false
        ⟨"feature", [("main", true), ("feature", true)]⟩ :=
  gitUiBranchDeleteBlocking_clean_iff atomicGit_exampleGit ..

/-- A branch that was not merged is not deleted, but HEAD has moved to main. -/
theorem gitUiBranchDeleteBlocking_strands :
    ∃ repo, ¬FailsClean ExampleRepo.view
      (gitUiBranchDeleteBlocking exampleGit none "/repo" "feature" false) repo := by
  refine ⟨⟨"feature", [("main", true), ("feature", false)]⟩, ?_⟩
  unfold FailsClean
  generalize hrun : gitUiBranchDeleteBlocking exampleGit none "/repo" "feature" false
    ⟨"feature", [("main", true), ("feature", false)]⟩ = run
  have hfields : (run.1.toOption, run.2) =
      (none, ⟨"main", [("main", true), ("feature", false)]⟩) := by
    rw [← hrun]
    decide +kernel
  obtain ⟨hfailed, hmoved⟩ := Prod.mk.inj hfields
  intro h
  cases hreply : run.1 with
  | ok message =>
    rw [hreply] at hfailed
    cases hfailed
  | error e =>
    have hview := h e hreply
    rw [hmoved] at hview
    exact absurd hview (by decide)

end Repository

end HerdrWebui.Git
