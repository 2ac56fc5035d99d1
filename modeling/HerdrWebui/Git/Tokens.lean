import HerdrWebui.Data.Text

/-!
The texts a git request passes on: the path of its repository, with the home
directory put in, and the tokens that may stand as arguments of git.
-/

namespace HerdrWebui.Git

/-- `Path::join`. -/
def joinPath (base rest : String) : String :=
  if rest.toList.head? = some '/' ∨ base = "" then rest
  else if base.toList.getLast? = some '/' then base ++ rest
  else base ++ "/" ++ rest

/-- `home` is `HOME`, if it is set. -/
def expandPathPrefix (home : Option String) (path : String) : String :=
  match home with
  | none => path
  | some home =>
    if path = "~" then home
    else
      match path.toList with
      | '~' :: '/' :: rest => joinPath home (String.ofList rest)
      | _ => joinPath home path

def safeGitToken (value label : String) : Except String String :=
  let trimmed := trim value
  if trimmed = "" ∨ trimmed.toList.head? = some '-' ∨ trimmed.toList.contains (Char.ofNat 0) then
    .error s!"invalid {label}"
  else .ok trimmed

theorem safeGitToken_trim (value label : String) :
    safeGitToken (trim value) label = safeGitToken value label := by
  rw [safeGitToken, safeGitToken, trim_trim]

theorem safeGitToken_empty (label : String) :
    safeGitToken "" label = .error s!"invalid {label}" := rfl

/-- The path git runs in, before it is asked whether a repository is there. -/
def gitUiRepo (home : Option String) (cwd : String) : Except String String :=
  (safeGitToken cwd "repository path").map (expandPathPrefix home)

end HerdrWebui.Git
