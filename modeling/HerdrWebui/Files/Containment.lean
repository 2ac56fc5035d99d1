import HerdrWebui.Data.Text
import HerdrWebui.Files.FileTree

/-!
The write, rename and delete requests of the file browser in any tree of files and
links. A path is checked against the root by resolving as much of it as is there.
The operation resolves what the check returned once more, so a link in the last
place that the check took for a new name is followed by the write.
-/

namespace HerdrWebui.Files

/-- The text of an error of the system is not known. -/
inductive FileError where
  | badRequest (message : Option String)
  | conflict (message : String)
  | badGateway
  deriving DecidableEq

def badRequest (message : String) : FileError := .badRequest (some message)

/-- `path.split('/')`. -/
def pathParts (path : String) : List String :=
  (path.toList.splitOn '/').map String.ofList

def cleanRelativePath (path : Option String) : Except FileError String :=
  let raw := String.ofList ((trim (path.getD "")).toList.dropWhile (· == '/'))
  if raw.toList.contains (Char.ofNat 0) || (pathParts raw).any (· == "..") then
    .error (badRequest "invalid path")
  else .ok raw

def cleanFileName (name : String) : Except FileError String :=
  let name := trim name
  if name = "" ∨ name.toList.contains (Char.ofNat 0) ∨ name.toList.contains '/' ∨
      name.toList.contains '\\' ∨ name = "." ∨ name = ".." then
    .error (badRequest "invalid name")
  else .ok name

/-- `Path::components` has neither blank parts nor single dots. -/
def components (parts : List String) : List String :=
  parts.filter fun part => part != "" && part != "."

structure FileBrowserWriteRequest where
  path : String
  content : List UInt8
  expectedHash : Option String
  createParents : Bool

structure FileBrowserRenameRequest where
  path : String
  newName : String

structure FileBrowserDeleteRequest where
  path : String

/-- What a request answers, the tree it leaves and the locations at which it created,
truncated, moved or removed an entry. No code reads the last. -/
structure Outcome (α : Type) where
  result : Except FileError α
  tree : FileTree
  touched : List Loc

section Requests

variable (limit : Nat) (fs : FileTree) (root : Loc)

/-- The joined path if it leads somewhere, else its last name in its parent. -/
def resolveChild (path : String) : Except FileError Loc :=
  let joined := root.reverse ++ pathParts path
  let canonical : Except FileError Loc :=
    match fs.resolve limit joined with
    | .found loc => .ok loc
    | _ =>
      match (components joined).reverse with
      | [] => .error (badRequest "invalid path")
      | name :: parent =>
        match fs.resolve limit parent.reverse with
        | .found dir =>
          if name = ".." then .error (badRequest "invalid path")
          else .ok (name :: dir)
        | _ => .error (.badRequest none)
  match canonical with
  | .error err => .error err
  | .ok loc =>
    if root <:+ loc then .ok loc else .error (badRequest "path escapes root")

/-- The loop of `resolve_child_create`: a directory is made for each part but the
last that is not there. -/
def createParts : FileTree → Loc → List Loc → List String → Outcome Loc
  | fs, current, touched, [] => ⟨.ok current, fs, touched⟩
  | fs, current, touched, part :: rest =>
    if part = ".." then ⟨.error (badRequest "invalid path"), fs, touched⟩
    else
      let current := part :: current
      let made : Option (FileTree × List Loc) :=
        if !rest.isEmpty && !fs.pathExists limit current then
          (fs.mkdir limit current).map fun made => (made, touched ++ [current])
        else some (fs, touched)
      match made with
      | none => ⟨.error (.badRequest none), fs, touched⟩
      | some (fs, touched) =>
        match fs.stat limit current with
        | .found loc =>
          if root <:+ loc then createParts fs loc touched rest
          else ⟨.error (badRequest "path escapes root"), fs, touched⟩
        | _ => createParts fs current touched rest

/-- Where the loop ends if it makes no directory. -/
def createPlace : Loc → List String → Option Loc
  | current, [] => some current
  | current, part :: rest =>
    if part = ".." then none
    else
      match fs.stat limit (part :: current) with
      | .found loc => if root <:+ loc then createPlace loc rest else none
      | _ => if rest.isEmpty then some (part :: current) else none

def resolveChildCreate (path : String) : Outcome Loc :=
  createParts limit root fs root [] (components (pathParts path))

variable (sha256 : List UInt8 → String)

def fileHashOf (p : Loc) : Option String :=
  match fs.stat limit p with
  | .found loc =>
    match fs loc with
    | some (.file content) => some (sha256 content)
    | _ => none
  | _ => some ""

def hashRefuses (p : Loc) (expectedHash : Option String) : Bool :=
  match expectedHash, fileHashOf limit fs sha256 p with
  | some expected, some current => expected != current
  | _, _ => false

def resolveTarget (body : FileBrowserWriteRequest) (rel : String) : Outcome Loc :=
  if body.createParents then resolveChildCreate limit fs root rel
  else ⟨resolveChild limit fs root rel, fs, []⟩

def writeResolved (body : FileBrowserWriteRequest) (file : Loc) (touched : List Loc) :
    Outcome Unit :=
  if fs.isDir limit file then
    ⟨.error (badRequest "path is a directory"), fs, touched⟩
  else if fileHashOf limit fs sha256 file = none then ⟨.error .badGateway, fs, touched⟩
  else if hashRefuses limit fs sha256 file body.expectedHash then
    ⟨.error (.conflict "file changed on disk; reload before saving"), fs, touched⟩
  else
    match fs.mkdirAll limit file.tail with
    | none => ⟨.error .badGateway, fs, touched⟩
    | some made =>
      match made.opened limit file, made.writeFile limit file body.content with
      | some loc, some written => ⟨.ok (), written, touched ++ [loc]⟩
      | _, _ => ⟨.error .badGateway, made, touched⟩

def writeFilePayload (body : FileBrowserWriteRequest) : Outcome Unit :=
  match cleanRelativePath (some body.path) with
  | .error err => ⟨.error err, fs, []⟩
  | .ok rel =>
    if rel = "" then ⟨.error (badRequest "path is required"), fs, []⟩
    else
      let target := resolveTarget limit fs root body rel
      match target.result with
      | .error err => ⟨.error err, target.tree, target.touched⟩
      | .ok file => writeResolved limit target.tree sha256 body file target.touched

def renameResolved (source : Loc) (newName : String) : Outcome Unit :=
  if !fs.pathExists limit source then
    ⟨.error (badRequest "path does not exist"), fs, []⟩
  else
    match source with
    | [] => ⟨.error (badRequest "invalid path"), fs, []⟩
    | name :: parent =>
      let source := name :: parent
      let target := newName :: parent
      if ¬ root <:+ target then ⟨.error (badRequest "path escapes root"), fs, []⟩
      else if fs.pathExists limit target then
        ⟨.error (.conflict "target already exists"), fs, []⟩
      else
        match fs.rename limit source target with
        | none => ⟨.error .badGateway, fs, []⟩
        | some moved => ⟨.ok (), moved, [source, target]⟩

def renamePayload (body : FileBrowserRenameRequest) : Outcome Unit :=
  match cleanRelativePath (some body.path) with
  | .error err => ⟨.error err, fs, []⟩
  | .ok rel =>
    if rel = "" then ⟨.error (badRequest "path is required"), fs, []⟩
    else
      match cleanFileName body.newName with
      | .error err => ⟨.error err, fs, []⟩
      | .ok newName =>
        match resolveChild limit fs root rel with
        | .error err => ⟨.error err, fs, []⟩
        | .ok source => renameResolved limit fs root source newName

def deleteResolved (path : Loc) : Outcome Unit :=
  if fs.isDir limit path then
    let removed := fs.removeDirAll limit path
    if removed.1 then ⟨.ok (), removed.2, [path]⟩ else ⟨.error .badGateway, removed.2, []⟩
  else if fs.isFile limit path then
    match fs.unlink limit path with
    | none => ⟨.error .badGateway, fs, []⟩
    | some tree => ⟨.ok (), tree, [path]⟩
  else ⟨.error (badRequest "path does not exist"), fs, []⟩

def deletePayload (body : FileBrowserDeleteRequest) : Outcome Unit :=
  match cleanRelativePath (some body.path) with
  | .error err => ⟨.error err, fs, []⟩
  | .ok rel =>
    if rel = "" then ⟨.error (badRequest "path is required"), fs, []⟩
    else
      match resolveChild limit fs root rel with
      | .error err => ⟨.error err, fs, []⟩
      | .ok path => deleteResolved limit fs path

end Requests

/-- The root itself is an entry of the directory it is in. -/
def Below (root p : Loc) : Prop := root <:+ p ∧ p ≠ root

instance (root p : Loc) : Decidable (Below root p) :=
  inferInstanceAs (Decidable (_ ∧ _))

/-- The request touched entries below the root and left all others as they were. -/
structure Contained {α : Type} (root : Loc) (fs : FileTree) (o : Outcome α) : Prop where
  touched : ∀ loc ∈ o.touched, Below root loc
  outside : ∀ p, ¬ Below root p → o.tree p = fs p

theorem Contained.unchanged {α : Type} {root : Loc} {fs : FileTree}
    {result : Except FileError α} : Contained root fs ⟨result, fs, []⟩ :=
  ⟨fun _ hloc => absurd hloc List.not_mem_nil, fun _ _ => rfl⟩

section Below

variable {root p q : Loc} {name : String}

theorem Below.cons (h : root <:+ p) : Below root (name :: p) := by
  refine ⟨h.trans (List.suffix_cons _ _), ?_⟩
  rintro rfl
  have hlength := h.length_le
  simp at hlength

theorem Below.mono (h : Below root p) (hq : p <:+ q) : Below root q := by
  refine ⟨h.1.trans hq, ?_⟩
  rintro rfl
  exact h.2 (hq.eq_of_length_le h.1.length_le)

theorem Below.not_suffix (h : Below root p) (hq : ¬ Below root q) : ¬ p <:+ q :=
  fun hsuffix => hq (h.mono hsuffix)

end Below

section Resolution

variable {limit : Nat} {fs : FileTree} {root : Loc}

theorem properName_of_mem {parts : List String} {name : String}
    (h : name ∈ components parts) (hparent : name ≠ "..") :
    FileTree.properName name = true := by
  have hname := (List.mem_filter.mp h).2
  simp only [FileTree.properName, Bool.and_eq_true, bne_iff_ne] at hname ⊢
  exact ⟨hname, hparent⟩

theorem resolveChild_ok {path : String} {loc : Loc}
    (h : resolveChild limit fs root path = .ok loc) : root <:+ loc ∧ fs.Placed loc := by
  rw [resolveChild] at h
  split at h
  · cases h
  · next canonical hcanonical =>
      split at h
      · next hinside =>
          cases h
          refine ⟨hinside, ?_⟩
          split at hcanonical
          · next found hfound =>
              cases hcanonical
              have hsound := fs.resolve_sound limit (root.reverse ++ pathParts path)
              rw [hfound] at hsound
              exact FileTree.Real.placed hsound
          · split at hcanonical
            · cases hcanonical
            · next name parent hname =>
                split at hcanonical
                · next dir hdir =>
                    split at hcanonical
                    · cases hcanonical
                    · next hparent =>
                        cases hcanonical
                        have hmem : name ∈ components (root.reverse ++ pathParts path) := by
                          rw [← List.mem_reverse, hname]
                          exact List.mem_cons_self
                        have hsound := fs.resolve_sound limit parent.reverse
                        rw [hdir] at hsound
                        exact ⟨hsound, properName_of_mem hmem hparent⟩
                · cases hcanonical
      · cases h

section Loop

variable {current : Loc} {touched : List Loc} {part : String} {rest : List String}

theorem createParts_parent (hparent : part = "..") :
    createParts limit root fs current touched (part :: rest) =
      ⟨.error (badRequest "invalid path"), fs, touched⟩ := by
  rw [createParts, if_pos hparent]

theorem createParts_found {loc : Loc} (hparent : part ≠ "..")
    (hstat : fs.stat limit (part :: current) = .found loc) :
    createParts limit root fs current touched (part :: rest) =
      if root <:+ loc then createParts limit root fs loc touched rest
      else ⟨.error (badRequest "path escapes root"), fs, touched⟩ := by
  simp [createParts, hparent, FileTree.pathExists_found hstat, hstat]

theorem createParts_last (hparent : part ≠ "..")
    (hstat : ∀ loc, fs.stat limit (part :: current) ≠ .found loc) :
    createParts limit root fs current touched [part] = ⟨.ok (part :: current), fs, touched⟩ := by
  rw [createParts, if_neg hparent]
  simp only [List.isEmpty_nil, Bool.not_true, Bool.false_and, Bool.false_eq_true, if_false]
  rfl

theorem createParts_make (hcurrent : fs.Real current) (hroot : root <:+ current)
    (hproper : FileTree.properName part = true) (hparent : part ≠ "..")
    (hstat : ∀ loc, fs.stat limit (part :: current) ≠ .found loc) (hrest : rest ≠ []) :
    createParts limit root fs current touched (part :: rest) =
      match fs.mkdir limit (part :: current) with
      | none => ⟨.error (.badRequest none), fs, touched⟩
      | some made =>
        createParts limit root made (part :: current) (touched ++ [part :: current]) rest := by
  rw [createParts, if_neg hparent]
  simp only [FileTree.pathExists_missing hstat, List.isEmpty_eq_false_iff.mpr hrest,
    Bool.not_false, Bool.and_self, if_true]
  cases hmade : fs.mkdir limit (part :: current) with
  | none => rfl
  | some made =>
    have hreal := hcurrent.mkdir hproper hmade
    simp only [Option.map_some, FileTree.stat_real hreal,
      if_pos (hroot.trans (List.suffix_cons part current))]

end Loop

/-- What the loop leaves when it has made a directory: the last name is new. -/
structure Fresh (root : Loc) (fs : FileTree) (o : Outcome Loc) : Prop where
  contained : Contained root fs o
  below : ∀ place, o.result = .ok place → Below root place
  placed : ∀ place, o.result = .ok place → o.tree.Placed place
  missing : ∀ place, o.result = .ok place → o.tree place = none

theorem Fresh.of_error {o : Outcome Loc} {err : FileError} (h : Contained root fs o)
    (herr : o.result = .error err) : Fresh root fs o := by
  constructor
  · exact h
  all_goals
    intro place hplace
    rw [herr] at hplace
    cases hplace

theorem Fresh.mkdir {made : FileTree} {current : Loc} {part : String} {o : Outcome Loc}
    (hcurrent : fs.Real current) (hroot : root <:+ current)
    (hmade : fs.mkdir limit (part :: current) = some made) (h : Fresh root made o) :
    Fresh root fs o := by
  refine ⟨⟨h.contained.touched, ?_⟩, h.below, h.placed, h.missing⟩
  intro p hp
  obtain ⟨rfl, -, -⟩ := FileTree.mkdir_real hcurrent hmade
  rw [h.contained.outside p hp]
  apply Function.update_of_ne
  rintro rfl
  exact hp (Below.cons hroot)

theorem below_append {touched : List Loc} {p : Loc} {name : String}
    (htouched : ∀ loc ∈ touched, Below root loc) (hroot : root <:+ p) :
    ∀ loc ∈ touched ++ [name :: p], Below root loc := by
  intro loc hloc
  rcases List.mem_append.mp hloc with hold | hnew
  · exact htouched loc hold
  · rw [List.mem_singleton.mp hnew]
    exact Below.cons hroot

theorem createParts_fresh {parts : List String} (hparts : ∀ part ∈ parts, part ≠ "" ∧ part ≠ ".")
    (hne : parts ≠ []) {current : Loc} {touched : List Loc} (htree : fs.IsTree)
    (hcurrent : fs.Real current) (hempty : ∀ name, fs (name :: current) = none)
    (hroot : root <:+ current) (htouched : ∀ loc ∈ touched, Below root loc) :
    Fresh root fs (createParts limit root fs current touched parts) := by
  induction parts generalizing fs current touched with
  | nil => exact absurd rfl hne
  | cons part rest ih =>
    obtain ⟨hpart, hrest⟩ := List.forall_mem_cons.mp hparts
    by_cases hparent : part = ".."
    · rw [createParts_parent hparent]
      exact .of_error ⟨htouched, fun _ _ => rfl⟩ rfl
    have hproper : FileTree.properName part = true := by
      simp [FileTree.properName, hpart.1, hpart.2, hparent]
    have hstat := FileTree.stat_free limit hcurrent hproper (hempty part)
    by_cases hlast : rest = []
    · subst hlast
      rw [createParts_last hparent hstat]
      refine ⟨⟨htouched, fun _ _ => rfl⟩, ?_, ?_, ?_⟩
      all_goals
        intro place hplace
        cases hplace
      · exact Below.cons hroot
      · exact ⟨hcurrent, hproper⟩
      · exact hempty part
    · rw [createParts_make hcurrent hroot hproper hparent hstat hlast]
      cases hmade : fs.mkdir limit (part :: current) with
      | none => exact .of_error ⟨htouched, fun _ _ => rfl⟩ rfl
      | some made =>
        apply Fresh.mkdir hcurrent hroot hmade
        exact ih hrest hlast (htree.mkdir hcurrent hmade) (hcurrent.mkdir hproper hmade)
          (htree.mkdir_empty hcurrent hmade) (hroot.trans (List.suffix_cons _ _))
          (below_append htouched hroot)

variable (limit) in
/-- The loop fails before it makes a directory, or it makes none and ends where the
path leads in the tree as it was, or its last name is new. -/
theorem createParts_cases {parts : List String}
    (hparts : ∀ part ∈ parts, part ≠ "" ∧ part ≠ ".") {current : Loc} (htree : fs.IsTree)
    (hcurrent : fs.Real current) (hroot : root <:+ current) :
    (createPlace limit fs root current parts = none ∧
      ((∃ err, createParts limit root fs current [] parts = ⟨.error err, fs, []⟩) ∨
        Fresh root fs (createParts limit root fs current [] parts))) ∨
    ∃ place, createPlace limit fs root current parts = some place ∧
      createParts limit root fs current [] parts = ⟨.ok place, fs, []⟩ ∧
      root <:+ place ∧ fs.Placed place := by
  induction parts generalizing current with
  | nil => exact .inr ⟨current, rfl, by rw [createParts], hroot, hcurrent.placed⟩
  | cons part rest ih =>
    obtain ⟨hpart, hrest⟩ := List.forall_mem_cons.mp hparts
    rw [createPlace]
    by_cases hparent : part = ".."
    · rw [createParts_parent hparent, if_pos hparent]
      exact .inl ⟨rfl, .inl ⟨_, rfl⟩⟩
    rw [if_neg hparent]
    have hproper : FileTree.properName part = true := by
      simp [FileTree.properName, hpart.1, hpart.2, hparent]
    split
    · next loc hfound =>
        have hsound := fs.stat_sound limit (part :: current)
        rw [hfound] at hsound
        rw [createParts_found hparent hfound]
        split
        · next hinside => exact ih hrest hsound hinside
        · exact .inl ⟨rfl, .inl ⟨_, rfl⟩⟩
    · next hstat =>
        by_cases hlast : rest = []
        · subst hlast
          rw [createParts_last hparent hstat]
          exact .inr ⟨part :: current, rfl, rfl, hroot.trans (List.suffix_cons _ _),
            hcurrent, hproper⟩
        · rw [createParts_make hcurrent hroot hproper hparent hstat hlast,
            List.isEmpty_eq_false_iff.mpr hlast]
          refine .inl ⟨rfl, ?_⟩
          cases hmade : fs.mkdir limit (part :: current) with
          | none => exact .inl ⟨_, rfl⟩
          | some made =>
            refine .inr (Fresh.mkdir hcurrent hroot hmade ?_)
            exact createParts_fresh hrest hlast (htree.mkdir hcurrent hmade)
              (hcurrent.mkdir hproper hmade) (htree.mkdir_empty hcurrent hmade)
              (hroot.trans (List.suffix_cons _ _)) (below_append (by simp) hroot)

end Resolution

section Writes

variable {limit : Nat} {fs : FileTree} {root file : Loc} {sha256 : List UInt8 → String}
  {body : FileBrowserWriteRequest} {touched : List Loc}

theorem fileHashOf_opened {loc : Loc} (h : fs.opened limit file = some loc) :
    fileHashOf limit fs sha256 file ≠ none := by
  rw [FileTree.opened] at h
  rw [fileHashOf]
  split at h
  · next found hfound =>
      rw [hfound]
      split at h
      · next hfile =>
          cases found with
          | nil => cases hfile
          | cons name dir =>
            simp only [FileTree.isFileAt] at hfile
            split at hfile
            · next content hcontent => simp [hcontent]
            · cases hfile
      · cases h
  · next hfound => simp [hfound]
  · cases h

variable (limit sha256 body touched) in
/-- A write fails before it opens the file, or it writes where the open leads. -/
theorem writeResolved_cases (hfile : fs.Placed file) :
    ((hashRefuses limit fs sha256 file body.expectedHash = true ∨
        fs.opened limit file = none) ∧
      ∃ err, writeResolved limit fs sha256 body file touched = ⟨.error err, fs, touched⟩) ∨
    hashRefuses limit fs sha256 file body.expectedHash = false ∧
      ∃ loc, fs.opened limit file = some loc ∧
        writeResolved limit fs sha256 body file touched =
          ⟨.ok (), Function.update fs loc (some (.file body.content)), touched ++ [loc]⟩ := by
  rw [writeResolved]
  cases hopened : fs.opened limit file with
  | none =>
    refine .inl ⟨.inr rfl, ?_⟩
    split
    · exact ⟨_, rfl⟩
    · split
      · exact ⟨_, rfl⟩
      · split
        · exact ⟨_, rfl⟩
        · split
          · exact ⟨_, rfl⟩
          · next made hmade =>
              rw [FileTree.mkdirAll_real hfile.tail hmade, hopened]
              exact ⟨_, rfl⟩
  | some loc =>
    obtain ⟨hdir, -⟩ := FileTree.opened_placed hfile hopened
    rw [FileTree.opened_isDir hopened, if_neg (by simp), if_neg (fileHashOf_opened hopened)]
    cases hrefuses : hashRefuses limit fs sha256 file body.expectedHash with
    | true => exact .inl ⟨.inl rfl, _, rfl⟩
    | false =>
      refine .inr ⟨rfl, loc, rfl, ?_⟩
      rw [if_neg (by simp), FileTree.mkdirAll_dir hfile.tail hdir]
      simp only [FileTree.writeFile, hopened, Option.map_some]

/-- The open for writing is led out of the root by a link. -/
def leadsOut (limit : Nat) (fs : FileTree) (root file : Loc) : Bool :=
  match fs file, fs.opened limit file with
  | some (.link _ _), some loc => !decide (Below root loc)
  | _, _ => false

theorem opened_below_iff (hroot : fs.Real root) (hfile : fs.Placed file)
    (hinside : root <:+ file) {loc : Loc} (hloc : fs.opened limit file = some loc) :
    Below root loc ↔
      (file = root → fs.isDirAt root = true) ∧ leadsOut limit fs root file = false := by
  have hself (heq : file = root) : fs.isDirAt root = false ∧ loc = root := by
    rw [heq, FileTree.opened_real hroot] at hloc
    cases hdir : fs.isDirAt root with
    | true => simp [hdir] at hloc
    | false => exact ⟨rfl, by simpa [hdir] using hloc.symm⟩
  constructor
  · intro hbelow
    refine ⟨fun heq => absurd (hself heq).2 hbelow.2, ?_⟩
    rw [leadsOut, hloc]
    split
    · next heq =>
        cases heq
        simpa using hbelow
    · rfl
  · rintro ⟨hdir, hleads⟩
    obtain ⟨-, rfl | ⟨absolute, target, hlink⟩⟩ := FileTree.opened_placed hfile hloc
    · refine ⟨hinside, fun heq => ?_⟩
      have hfile := (hself heq).1
      rw [hdir heq] at hfile
      cases hfile
    · rw [leadsOut, hlink, hloc] at hleads
      simpa using hleads

/-- A write stays inside unless its file is the root itself or a link out of it. -/
theorem writeResolved_contained_iff (hroot : fs.Real root) (hfile : fs.Placed file)
    (hinside : root <:+ file) :
    Contained root fs (writeResolved limit fs sha256 body file []) ↔
      hashRefuses limit fs sha256 file body.expectedHash = true ∨
        (file = root → fs.isDirAt root = true) ∧ leadsOut limit fs root file = false := by
  rcases writeResolved_cases limit sha256 body [] hfile with
    ⟨hrefused, err, herr⟩ | ⟨hpasses, loc, hloc, hwritten⟩
  · rw [herr]
    refine ⟨fun _ => ?_, fun _ => .unchanged⟩
    rcases hrefused with hrefuses | hopened
    · exact .inl hrefuses
    · refine .inr ⟨?_, by simp [leadsOut, hopened]⟩
      rintro rfl
      rw [FileTree.opened_real hroot] at hopened
      simpa using hopened
  · rw [hwritten, hpasses, ← opened_below_iff hroot hfile hinside hloc]
    simp only [Bool.false_eq_true, false_or]
    constructor
    · intro hcontained
      exact hcontained.touched loc (by simp)
    · intro hbelow
      refine ⟨by simpa using hbelow, fun p hp => ?_⟩
      apply Function.update_of_ne
      rintro rfl
      exact hp hbelow

theorem writeFilePayload_unnamed
    (h : ∀ rel, cleanRelativePath (some body.path) = .ok rel → rel = "") :
    Contained root fs (writeFilePayload limit fs root sha256 body) := by
  delta writeFilePayload
  cases hrel : cleanRelativePath (some body.path) with
  | error err => exact .unchanged
  | ok rel =>
    dsimp only
    rw [if_pos (h rel hrel)]
    exact .unchanged

theorem writeFilePayload_eq {rel : String} (hrel : cleanRelativePath (some body.path) = .ok rel)
    (hne : rel ≠ "") :
    writeFilePayload limit fs root sha256 body =
      match (resolveTarget limit fs root body rel).result with
      | .error err =>
        ⟨.error err, (resolveTarget limit fs root body rel).tree,
          (resolveTarget limit fs root body rel).touched⟩
      | .ok file =>
        writeResolved limit (resolveTarget limit fs root body rel).tree sha256 body file
          (resolveTarget limit fs root body rel).touched := by
  delta writeFilePayload
  rw [hrel]
  dsimp only
  rw [if_neg hne]

theorem Fresh.writeResolved {fs' : FileTree} {o : Outcome Loc} (h : Fresh root fs' o)
    (hfile : o.result = .ok file) :
    Contained root fs' (writeResolved limit o.tree sha256 body file o.touched) := by
  have hbelow := h.below file hfile
  rcases writeResolved_cases limit sha256 body o.touched (h.placed file hfile) with
    ⟨-, err, herr⟩ | ⟨-, loc, hloc, hwritten⟩
  · rw [herr]
    exact ⟨h.contained.touched, h.contained.outside⟩
  · obtain ⟨-, rfl | ⟨absolute, target, hlink⟩⟩ :=
      FileTree.opened_placed (h.placed file hfile) hloc
    · rw [hwritten]
      refine ⟨?_, fun p hp => ?_⟩
      · intro p hp
        rcases List.mem_append.mp hp with hold | hnew
        · exact h.contained.touched p hold
        · rw [List.mem_singleton.mp hnew]
          exact hbelow
      · have hne : p ≠ loc := by
          rintro rfl
          exact hp hbelow
        exact (Function.update_of_ne hne _ _).trans (h.contained.outside p hp)
    · rw [h.missing file hfile] at hlink
      cases hlink

/-- The place of the write in the tree as the request meets it, if no directory has to
be made for it. -/
def writePlace (limit : Nat) (fs : FileTree) (root : Loc) (body : FileBrowserWriteRequest)
    (rel : String) : Option Loc :=
  if body.createParents then createPlace limit fs root root (components (pathParts rel))
  else (resolveChild limit fs root rel).toOption

theorem writeFilePayload_contained_iff (htree : fs.IsTree) (hroot : fs.Real root) {rel : String}
    (hrel : cleanRelativePath (some body.path) = .ok rel) (hne : rel ≠ "") :
    Contained root fs (writeFilePayload limit fs root sha256 body) ↔
      ∀ file, writePlace limit fs root body rel = some file →
        hashRefuses limit fs sha256 file body.expectedHash = true ∨
          (file = root → fs.isDirAt root = true) ∧ leadsOut limit fs root file = false := by
  rw [writeFilePayload_eq hrel hne, resolveTarget, writePlace]
  cases hparents : body.createParents with
  | false =>
    simp only [Bool.false_eq_true, if_false]
    cases hchild : resolveChild limit fs root rel with
    | error err => simp [Except.toOption, Contained.unchanged]
    | ok file =>
      obtain ⟨hinside, hfile⟩ := resolveChild_ok hchild
      simp only [Except.toOption, Option.some.injEq, forall_eq']
      exact writeResolved_contained_iff hroot hfile hinside
  | true =>
    have hparts : ∀ part ∈ components (pathParts rel), part ≠ "" ∧ part ≠ "." := by
      intro part hpart
      simpa [components] using (List.mem_filter.mp hpart).2
    simp only [if_true, resolveChildCreate]
    rcases createParts_cases limit hparts htree hroot List.suffix_rfl with
      ⟨hplace, ⟨err, herr⟩ | hfresh⟩ | ⟨file, hplace, hcreate, hinside, hfile⟩
    · simp [hplace, herr, Contained.unchanged]
    · simp only [hplace, reduceCtorEq, false_implies, implies_true, iff_true]
      split
      · exact ⟨hfresh.contained.touched, hfresh.contained.outside⟩
      · next file hfile => exact hfresh.writeResolved hfile
    · simp only [hplace, hcreate, Option.some.injEq, forall_eq']
      exact writeResolved_contained_iff hroot hfile hinside

end Writes

section Moves

variable {limit : Nat} {fs : FileTree} {root : Loc}

/-- Names in one directory: if one of them is below the root, so are the others. -/
theorem Below.sibling {name name' : String} {dir : Loc} (h : Below root (name :: dir)) :
    Below root (name' :: dir) := by
  rcases List.suffix_cons_iff.mp h.1 with heq | hdir
  · exact absurd heq.symm h.2
  · exact Below.cons hdir

theorem renameResolved_contained {source : Loc} (hroot : fs.Real root)
    (hsource : fs.Placed source) (newName : String) :
    Contained root fs (renameResolved limit fs root source newName) := by
  cases source with
  | nil =>
    rw [renameResolved.eq_def]
    split <;> exact .unchanged
  | cons name parent =>
    rw [renameResolved.eq_def]
    split
    · exact .unchanged
    · dsimp only
      split
      · exact .unchanged
      · next htarget =>
          split
          · exact .unchanged
          · next hfree =>
              split
              · exact .unchanged
              · next moved hmoved =>
                  -- the root exists, so the target is another place
                  have hnew : Below root (newName :: parent) := by
                    refine ⟨not_not.mp htarget, fun heq => hfree ?_⟩
                    rw [heq]
                    exact FileTree.pathExists_found (FileTree.stat_real hroot)
                  have hold : Below root (name :: parent) := hnew.sibling
                  refine ⟨?_, fun p hp => ?_⟩
                  · simp [hold, hnew]
                  · exact FileTree.rename_real hsource.1 hmoved (hold.not_suffix hp)
                      (hnew.not_suffix hp)

theorem renamePayload_contained (hroot : fs.Real root) (body : FileBrowserRenameRequest) :
    Contained root fs (renamePayload limit fs root body) := by
  delta renamePayload
  split
  · exact .unchanged
  · split
    · exact .unchanged
    · split
      · exact .unchanged
      · next newName _ =>
          split
          · exact .unchanged
          · next source hsource =>
              exact renameResolved_contained hroot (resolveChild_ok hsource).2 newName

theorem deleteResolved_contained {path : Loc} (hpath : fs.Placed path) (hbelow : Below root path) :
    Contained root fs (deleteResolved limit fs path) := by
  have htouched : ∀ loc ∈ [path], Below root loc := by simpa using hbelow
  rw [deleteResolved]
  split
  · have houtside (p : Loc) (hp : ¬ Below root p) : (fs.removeDirAll limit path).2 p = fs p :=
      FileTree.removeDirAll_real hpath.tail (.inl (hbelow.not_suffix hp))
    dsimp only
    split
    · exact ⟨htouched, houtside⟩
    · exact ⟨by simp, houtside⟩
  · split
    · split
      · exact .unchanged
      · next tree htree =>
          refine ⟨htouched, fun p hp => FileTree.unlink_real hpath.tail htree ?_⟩
          rintro rfl
          exact hp hbelow
    · exact .unchanged

theorem deleteResolved_root (hroot : fs.Real root) :
    Contained root fs (deleteResolved limit fs root) ↔ root = [] := by
  constructor
  · intro hcontained
    cases root with
    | nil => rfl
    | cons name dir =>
      obtain ⟨-, -, -, entry, hentry, hnolink⟩ := id hroot
      have htouched : (deleteResolved limit fs (name :: dir)).touched = [name :: dir] := by
        rw [deleteResolved, FileTree.isDir_real hroot]
        cases entry with
        | link absolute target => cases hnolink
        | file content =>
          simp [FileTree.isDirAt, FileTree.isFile, FileTree.stat_real hroot,
            FileTree.isFileAt, FileTree.unlink, FileTree.entryAt_self hroot, hentry]
        | dir =>
          simp [FileTree.isDirAt, FileTree.removeDirAll, FileTree.entryAt_self hroot, hentry]
      have hself := hcontained.touched (name :: dir) (by rw [htouched]; simp)
      exact absurd rfl hself.2
  · rintro rfl
    have hdir : fs.isDir limit [] = true := FileTree.isDir_real hroot
    rw [deleteResolved, hdir]
    refine ⟨by simp [FileTree.removeDirAll, FileTree.entryAt], ?_⟩
    intro p hp
    have hnil : p = [] := by
      by_contra hne
      exact hp ⟨List.nil_suffix, hne⟩
    simp [hnil, FileTree.removeDirAll, FileTree.entryAt]

theorem deletePayload_unnamed {body : FileBrowserDeleteRequest}
    (h : ∀ rel, cleanRelativePath (some body.path) = .ok rel → rel = "") :
    Contained root fs (deletePayload limit fs root body) := by
  delta deletePayload
  cases hrel : cleanRelativePath (some body.path) with
  | error err => exact .unchanged
  | ok rel =>
    dsimp only
    rw [if_pos (h rel hrel)]
    exact .unchanged

theorem deletePayload_contained_iff (hroot : fs.Real root) {body : FileBrowserDeleteRequest}
    {rel : String} (hrel : cleanRelativePath (some body.path) = .ok rel) (hne : rel ≠ "") :
    Contained root fs (deletePayload limit fs root body) ↔
      (resolveChild limit fs root rel = .ok root → root = []) := by
  delta deletePayload
  rw [hrel]
  dsimp only
  rw [if_neg hne]
  cases hchild : resolveChild limit fs root rel with
  | error err => simp [Contained.unchanged]
  | ok path =>
    obtain ⟨hinside, hplaced⟩ := resolveChild_ok hchild
    by_cases hself : path = root
    · rw [hself]
      simpa using deleteResolved_root hroot
    · simp only [Except.ok.injEq, hself, false_implies, iff_true]
      exact deleteResolved_contained hplaced ⟨hinside, hself⟩

end Moves

inductive FileRequest where
  | write (body : FileBrowserWriteRequest)
  | rename (body : FileBrowserRenameRequest)
  | delete (body : FileBrowserDeleteRequest)

section All

variable (limit : Nat) (fs : FileTree) (root : Loc) (sha256 : List UInt8 → String)

def handle : FileRequest → Outcome Unit
  | .write body => writeFilePayload limit fs root sha256 body
  | .rename body => renamePayload limit fs root body
  | .delete body => deletePayload limit fs root body

/-- A write that passes its hash check names neither a root that is a file nor a link
that leads out of the root. A deletion does not name the root. -/
def StaysInside : FileRequest → Prop
  | .write body =>
    ∀ rel, cleanRelativePath (some body.path) = .ok rel → rel ≠ "" →
      ∀ file, writePlace limit fs root body rel = some file →
        hashRefuses limit fs sha256 file body.expectedHash = true ∨
          (file = root → fs.isDirAt root = true) ∧ leadsOut limit fs root file = false
  | .rename _ => True
  | .delete body =>
    ∀ rel, cleanRelativePath (some body.path) = .ok rel → rel ≠ "" →
      resolveChild limit fs root rel = .ok root → root = []

/-- In every tree and for every root that is a resolved path. -/
theorem requests_contained_iff (htree : fs.IsTree) (hroot : fs.Real root)
    (request : FileRequest) :
    Contained root fs (handle limit fs root sha256 request) ↔
      StaysInside limit fs root sha256 request := by
  cases request with
  | write body =>
    rw [handle, StaysInside]
    by_cases hnamed : ∀ rel, cleanRelativePath (some body.path) = .ok rel → rel = ""
    · exact iff_of_true (writeFilePayload_unnamed hnamed)
        fun rel hrel hne => absurd (hnamed rel hrel) hne
    · obtain ⟨rel, hrel, hne⟩ :
          ∃ rel, cleanRelativePath (some body.path) = .ok rel ∧ rel ≠ "" := by
        simpa using hnamed
      simpa [hrel, hne] using writeFilePayload_contained_iff htree hroot hrel hne
  | rename body =>
    rw [handle, StaysInside]
    exact iff_of_true (renamePayload_contained hroot body) trivial
  | delete body =>
    rw [handle, StaysInside]
    by_cases hnamed : ∀ rel, cleanRelativePath (some body.path) = .ok rel → rel = ""
    · exact iff_of_true (deletePayload_unnamed hnamed)
        fun rel hrel hne => absurd (hnamed rel hrel) hne
    · obtain ⟨rel, hrel, hne⟩ :
          ∃ rel, cleanRelativePath (some body.path) = .ok rel ∧ rel ≠ "" := by
        simpa using hnamed
      simpa [hrel, hne] using deletePayload_contained_iff hroot hrel hne

end All

/-- A dangling link in `/home` leads to a name that is free in `/etc`. -/
def linkedTree : FileTree :=
  .ofEntries [
    (["home"], .dir),
    (["etc"], .dir),
    (["out", "home"], .link true ["etc", "new"])
  ]

theorem linkedTree_isTree : linkedTree.IsTree :=
  FileTree.isTree_ofEntries (by decide +kernel)

theorem linkedTree_home : linkedTree.Real ["home"] :=
  ⟨trivial, rfl, by decide +kernel, .dir, by decide +kernel, rfl⟩

def plainWrite (path : String) : FileRequest := .write ⟨path, [1], none, false⟩

theorem requests_contained_new :
    Contained ["home"] linkedTree (handle 40 linkedTree ["home"] (fun _ => "") (plainWrite "a")) := by
  apply (requests_contained_iff 40 linkedTree ["home"] (fun _ => "") linkedTree_isTree
    linkedTree_home (plainWrite "a")).mpr
  intro rel hrel _ file hfile
  have hclean : cleanRelativePath (some "a") = .ok "a" := by decide +kernel
  obtain rfl : "a" = rel := Except.ok.inj (hclean.symm.trans hrel)
  have hplace : writePlace 40 linkedTree ["home"] ⟨"a", [1], none, false⟩ "a" =
      some ["a", "home"] := by decide +kernel
  obtain rfl : ["a", "home"] = file := Option.some.inj (hplace.symm.trans hfile)
  exact .inr ⟨fun _ => rfl, by decide +kernel⟩

/-- The write through the link creates the file it leads to. -/
theorem write_creates_outside :
    linkedTree.IsTree ∧ linkedTree.Real ["home"] ∧ linkedTree ["new", "etc"] = none ∧
      (handle 40 linkedTree ["home"] (fun _ => "") (plainWrite "out")).tree ["new", "etc"] =
        some (.file [1]) ∧
      ¬ Contained ["home"] linkedTree
        (handle 40 linkedTree ["home"] (fun _ => "") (plainWrite "out")) := by
  have hbefore : linkedTree ["new", "etc"] = none := by decide +kernel
  have hafter : (handle 40 linkedTree ["home"] (fun _ => "") (plainWrite "out")).tree
      ["new", "etc"] = some (.file [1]) := by decide +kernel
  refine ⟨linkedTree_isTree, linkedTree_home, hbefore, hafter, fun hcontained => ?_⟩
  have hkept := hcontained.outside ["new", "etc"] (by decide +kernel)
  rw [hafter, hbefore] at hkept
  cases hkept

end HerdrWebui.Files
