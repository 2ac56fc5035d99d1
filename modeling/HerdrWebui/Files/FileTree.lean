import Mathlib.Tactic

/-!
A tree of files, directories and symbolic links, the resolution of paths in it and
the system calls that change it. A location is a path without links: the names from
the innermost directory out. A path is resolved part by part; a link is followed
where it stands, at most a given number of times.

Nothing here is about a particular program.
-/

namespace HerdrWebui.Files

/-- Names, the innermost first. The root of the tree is the empty location. -/
abbrev Loc := List String

/-- The target of a link is a list of parts, which may be `..`. -/
inductive Entry where
  | file (content : List UInt8)
  | dir
  | link (absolute : Bool) (target : List String)
  deriving DecidableEq

def Entry.isLink : Entry → Bool
  | .link _ _ => true
  | _ => false

abbrev FileTree := Loc → Option Entry

/-- What a path leads to: an entry that is no link, nothing in a directory that is
there, or an error. -/
inductive Lookup where
  | found (loc : Loc)
  | missing (dir : Loc) (name : String)
  | error
  deriving DecidableEq

namespace FileTree

def isDirAt (fs : FileTree) : Loc → Bool
  | [] => true
  | p => fs p == some .dir

def isFileAt (fs : FileTree) : Loc → Bool
  | [] => false
  | p =>
    match fs p with
    | some (.file _) => true
    | _ => false

/-- The walk along a path up to its first link, which `follow` takes over. Blank
parts come from doubled and trailing slashes. -/
def walkWith (fs : FileTree) (follow : Loc → List String → Lookup) :
    Loc → List String → Lookup
  | cur, [] => .found cur
  | cur, part :: rest =>
    if !fs.isDirAt cur then .error
    else if part = "" ∨ part = "." then walkWith fs follow cur rest
    else if part = ".." then walkWith fs follow cur.tail rest
    else
      match fs (part :: cur) with
      | none => if rest.isEmpty then .missing cur part else .error
      | some (.link absolute target) =>
        follow (if absolute then [] else cur) (target ++ rest)
      | some _ => walkWith fs follow (part :: cur) rest

/-- The walk that follows up to `links` links. -/
def walk (fs : FileTree) : Nat → Loc → List String → Lookup
  | 0 => walkWith fs fun _ _ => .error
  | links + 1 => walkWith fs (walk fs links)

section SystemCalls

variable (limit : Nat) (fs : FileTree)

def resolve (path : List String) : Lookup := fs.walk limit [] path

/-- A location used as a path: what is there may have become a link. -/
def stat (p : Loc) : Lookup := fs.resolve limit p.reverse

def pathExists (p : Loc) : Bool :=
  match fs.stat limit p with
  | .found _ => true
  | _ => false

def isDir (p : Loc) : Bool :=
  match fs.stat limit p with
  | .found loc => fs.isDirAt loc
  | _ => false

def isFile (p : Loc) : Bool :=
  match fs.stat limit p with
  | .found loc => fs.isFileAt loc
  | _ => false

/-- The entry a path names, which is not followed if it is a link. -/
def entryAt : Loc → Option Loc
  | [] => some []
  | name :: dir =>
    match fs.stat limit dir with
    | .found d => if fs.isDirAt d then some (name :: d) else none
    | _ => none

def mkdir (p : Loc) : Option FileTree :=
  (fs.entryAt limit p).bind fun loc =>
    if loc ≠ [] ∧ fs loc = none then some (Function.update fs loc (some .dir)) else none

/-- `create_dir_all`: the parents first, where they are not there. -/
def mkdirAll : FileTree → Loc → Option FileTree
  | fs, [] => some fs
  | fs, name :: dir =>
    if fs.isDir limit (name :: dir) then some fs
    else (mkdirAll fs dir).bind fun made => made.mkdir limit (name :: dir)

/-- The file that an open for writing creates or truncates. A link is followed, also
one to a file that is not there yet. -/
def opened (p : Loc) : Option Loc :=
  match fs.stat limit p with
  | .found loc => if fs.isFileAt loc then some loc else none
  | .missing dir name => some (name :: dir)
  | .error => none

def writeFile (p : Loc) (content : List UInt8) : Option FileTree :=
  (fs.opened limit p).map fun loc => Function.update fs loc (some (.file content))

def unlink (p : Loc) : Option FileTree :=
  (fs.entryAt limit p).bind fun loc =>
    if fs.isDirAt loc ∨ fs loc = none then none else some (Function.update fs loc none)

/-- Nothing is left at or below the location. -/
def removeTree (loc : Loc) : FileTree := fun p => if loc <:+ p then none else fs p

/-- Whether all of it could be removed, and what is left. The root of the tree is
emptied and stays. -/
def removeDirAll (p : Loc) : Bool × FileTree :=
  match fs.entryAt limit p with
  | none => (false, fs)
  | some [] => (false, fun q => if q = [] then fs [] else none)
  | some (name :: dir) =>
    match fs (name :: dir) with
    | some .dir => (true, fs.removeTree (name :: dir))
    | some (.link _ _) => (true, Function.update fs (name :: dir) none)
    | _ => (false, fs)

/-- What is at or below `source` comes to stand at or below `target`. -/
def moveTree (source target : Loc) : FileTree := fun p =>
  if target <:+ p then fs (p.take (p.length - target.length) ++ source)
  else if source <:+ p then none
  else fs p

/-- `rename` follows neither of its last parts. A directory does not go below itself
nor in the place of a file or a link, and a directory at the target stays (the case
of an empty one, which another directory may replace, is left out). -/
def rename (source target : Loc) : Option FileTree :=
  match fs.entryAt limit source, fs.entryAt limit target with
  | some (name :: dir), some (name' :: dir') =>
    let loc := name :: dir
    let loc' := name' :: dir'
    if fs loc = none ∨ (loc <:+ loc' ∧ loc ≠ loc') then none
    else if loc = loc' then some fs
    else if fs loc' = some .dir ∨ (fs loc = some .dir ∧ fs loc' ≠ none) then none
    else some (fs.moveTree loc loc')
  | _, _ => none

end SystemCalls

def properName (name : String) : Bool := name != "" && name != "." && name != ".."

/-- The location is one that resolution ends in: directories up to its entry, which
is no link. -/
def Real (fs : FileTree) : Loc → Prop
  | [] => True
  | name :: dir =>
    Real fs dir ∧ fs.isDirAt dir = true ∧ properName name = true ∧
      ∃ entry, fs (name :: dir) = some entry ∧ entry.isLink = false

/-- What a walk from a real location ends in. -/
def Sound (fs : FileTree) : Lookup → Prop
  | .found loc => fs.Real loc
  | .missing dir name =>
    fs.Real dir ∧ fs.isDirAt dir = true ∧ properName name = true ∧
      fs (name :: dir) = none
  | .error => True

variable {fs : FileTree} {p : Loc} {limit : Nat}

theorem Real.tail (h : fs.Real p) : fs.Real p.tail := by
  cases p with
  | nil => trivial
  | cons name dir => exact h.1

/-- A name in a real location. What is there, if anything, may be a link. -/
def Placed (fs : FileTree) : Loc → Prop
  | [] => True
  | name :: dir => fs.Real dir ∧ properName name = true

theorem Real.placed (h : fs.Real p) : fs.Placed p := by
  cases p with
  | nil => trivial
  | cons name dir => exact ⟨h.1, h.2.2.1⟩

theorem Placed.tail (h : fs.Placed p) : fs.Real p.tail := by
  cases p with
  | nil => trivial
  | cons name dir => exact h.1

theorem walkWith_sound {follow : Loc → List String → Lookup}
    (hfollow : ∀ cur path, fs.Real cur → fs.Sound (follow cur path))
    (rest : List String) {cur : Loc} (h : fs.Real cur) :
    fs.Sound (fs.walkWith follow cur rest) := by
  induction rest generalizing cur with
  | nil => exact h
  | cons part rest ih =>
    rw [walkWith]
    split
    · trivial
    · next hdir =>
        have hdir' : fs.isDirAt cur = true := by simpa using hdir
        split
        · exact ih h
        · next hblank =>
            split
            · exact ih h.tail
            · next hparent =>
                have hproper : properName part = true := by
                  rw [not_or] at hblank
                  simp [properName, hblank.1, hblank.2, hparent]
                split
                · next hnone =>
                    split
                    · exact ⟨h, hdir', hproper, hnone⟩
                    · trivial
                · apply hfollow
                  split
                  · trivial
                  · exact h
                · next entry hnolink hentry =>
                    refine ih ⟨h, hdir', hproper, entry, hentry, ?_⟩
                    cases entry with
                    | link absolute target => exact absurd rfl (hnolink absolute target)
                    | file | dir => rfl

theorem walk_sound (links : Nat) {cur : Loc} (h : fs.Real cur) (path : List String) :
    fs.Sound (fs.walk links cur path) := by
  induction links generalizing cur path with
  | zero => exact walkWith_sound (fun _ _ _ => show fs.Sound .error from trivial) path h
  | succ links ih => exact walkWith_sound (fun _ path hcur => ih hcur path) path h

theorem walkWith_real (follow : Loc → List String → Lookup) (h : fs.Real p)
    (rest : List String) :
    fs.walkWith follow [] (p.reverse ++ rest) = fs.walkWith follow p rest := by
  induction p generalizing rest with
  | nil => rfl
  | cons name dir ih =>
    obtain ⟨hdir, hisDir, hproper, entry, hentry, hnolink⟩ := h
    simp only [properName, Bool.and_eq_true, bne_iff_ne] at hproper
    rw [List.reverse_cons, List.append_assoc, List.singleton_append, ih hdir, walkWith]
    simp only [hisDir, Bool.not_true, Bool.false_eq_true, if_false, hproper.1.1,
      hproper.1.2, hproper.2, or_self, hentry]
    cases entry with
    | link absolute target => cases hnolink
    | file | dir => rfl

theorem walk_real (links : Nat) (h : fs.Real p) (rest : List String) :
    fs.walk links [] (p.reverse ++ rest) = fs.walk links p rest := by
  cases links <;> exact walkWith_real _ h rest

theorem stat_real (h : fs.Real p) : fs.stat limit p = .found p := by
  have hwalk := walk_real limit h []
  rw [List.append_nil] at hwalk
  rw [stat, resolve, hwalk]
  cases limit <;> rfl

variable (limit) in
theorem stat_placed {name : String} {dir : Loc} (hdir : fs.Real dir)
    (hproper : properName name = true) :
    fs.isDirAt dir = false ∧ fs.stat limit (name :: dir) = .error ∨
      fs.isDirAt dir = true ∧
        (fs (name :: dir) = none ∧ fs.stat limit (name :: dir) = .missing dir name ∨
          ∃ entry, fs (name :: dir) = some entry ∧
            (entry.isLink = true ∨ fs.stat limit (name :: dir) = .found (name :: dir))) := by
  simp only [properName, Bool.and_eq_true, bne_iff_ne] at hproper
  have hstep (follow : Loc → List String → Lookup) :
      fs.walkWith follow [] ((name :: dir).reverse) =
        if !fs.isDirAt dir then .error
        else match fs (name :: dir) with
          | none => .missing dir name
          | some (.link absolute target) => follow (if absolute then [] else dir) (target ++ [])
          | some _ => .found (name :: dir) := by
    rw [List.reverse_cons, walkWith_real follow hdir, walkWith]
    simp only [hproper.1.1, hproper.1.2, hproper.2, or_self, if_false]
    rfl
  have hstat : ∃ follow, fs.stat limit (name :: dir) =
      fs.walkWith follow [] ((name :: dir).reverse) := by
    cases limit <;> exact ⟨_, rfl⟩
  obtain ⟨follow, hstat⟩ := hstat
  rw [hstat, hstep]
  cases hisDir : fs.isDirAt dir with
  | false => exact .inl ⟨rfl, rfl⟩
  | true =>
    refine .inr ⟨rfl, ?_⟩
    cases hentry : fs (name :: dir) with
    | none => exact .inl ⟨rfl, rfl⟩
    | some entry =>
      refine .inr ⟨entry, rfl, ?_⟩
      cases entry with
      | link absolute target => exact .inl rfl
      | file | dir => exact .inr rfl

variable (limit) in
theorem stat_free {name : String} {dir : Loc} (hdir : fs.Real dir)
    (hproper : properName name = true) (hfree : fs (name :: dir) = none) (loc : Loc) :
    fs.stat limit (name :: dir) ≠ .found loc := by
  rcases stat_placed limit hdir hproper with
    ⟨-, hstat⟩ | ⟨-, ⟨-, hstat⟩ | ⟨entry, hentry, -⟩⟩
  · simp [hstat]
  · simp [hstat]
  · rw [hfree] at hentry
    cases hentry

theorem opened_placed {loc : Loc} (h : fs.Placed p) (hloc : fs.opened limit p = some loc) :
    fs.isDirAt p.tail = true ∧
      (loc = p ∨ ∃ absolute target, fs p = some (.link absolute target)) := by
  cases p with
  | nil =>
    rw [opened, stat_real (p := []) trivial] at hloc
    cases hloc
  | cons name dir =>
    rw [opened] at hloc
    rcases stat_placed limit h.1 h.2 with
      ⟨-, hstat⟩ | ⟨hdir, ⟨-, hstat⟩ | ⟨entry, hentry, hlink | hstat⟩⟩
    · rw [hstat] at hloc
      cases hloc
    · rw [hstat] at hloc
      exact ⟨hdir, .inl (Option.some.inj hloc).symm⟩
    · cases entry with
      | link absolute target => exact ⟨hdir, .inr ⟨absolute, target, hentry⟩⟩
      | file | dir => cases hlink
    · rw [hstat] at hloc
      dsimp only at hloc
      split at hloc
      · exact ⟨hdir, .inl (Option.some.inj hloc).symm⟩
      · cases hloc

theorem opened_real (h : fs.Real p) :
    fs.opened limit p = if fs.isDirAt p then none else some p := by
  rw [opened, stat_real h]
  dsimp only
  cases p with
  | nil => rfl
  | cons name dir =>
    obtain ⟨-, -, -, entry, hentry, hnolink⟩ := h
    cases entry with
    | link absolute target => cases hnolink
    | file content => simp [isFileAt, isDirAt, hentry]
    | dir => simp [isFileAt, isDirAt, hentry]

theorem opened_isDir {loc : Loc} (h : fs.opened limit p = some loc) :
    fs.isDir limit p = false := by
  rw [opened] at h
  rw [isDir]
  split at h
  · next found hfound =>
      rw [hfound]
      split at h
      · next hfile =>
          cases found with
          | nil => cases hfile
          | cons name dir =>
            simp only [isFileAt] at hfile
            simp only [isDirAt, beq_eq_false_iff_ne]
            intro hdir
            simp [hdir] at hfile
      · cases h
  · next hfound => rw [hfound]
  · cases h

variable (limit) in
theorem stat_sound (p : Loc) : fs.Sound (fs.stat limit p) :=
  walk_sound limit (show fs.Real [] from trivial) p.reverse

variable (limit) in
theorem resolve_sound (path : List String) : fs.Sound (fs.resolve limit path) :=
  walk_sound limit (show fs.Real [] from trivial) path

theorem entryAt_real {name : String} {dir loc : Loc} (h : fs.Real dir)
    (hentry : fs.entryAt limit (name :: dir) = some loc) : loc = name :: dir := by
  rw [entryAt, stat_real h] at hentry
  dsimp only at hentry
  split at hentry
  · exact (Option.some.inj hentry).symm
  · cases hentry

theorem entryAt_self (h : fs.Real p) : fs.entryAt limit p = some p := by
  cases p with
  | nil => rfl
  | cons name dir => simp [entryAt, stat_real h.1, h.2.1]

variable {made : FileTree} {name : String} {dir : Loc}

theorem mkdir_real (h : fs.Real dir) (hmade : fs.mkdir limit (name :: dir) = some made) :
    made = Function.update fs (name :: dir) (some .dir) ∧ fs (name :: dir) = none ∧
      fs.isDirAt dir = true := by
  obtain ⟨loc, hloc, hnew⟩ := Option.bind_eq_some_iff.mp hmade
  obtain rfl := entryAt_real h hloc
  have hdir : fs.isDirAt dir = true := by
    rw [entryAt, stat_real h] at hloc
    dsimp only at hloc
    split at hloc
    · assumption
    · cases hloc
  split at hnew
  · next hfree => exact ⟨(Option.some.inj hnew).symm, hfree.2, hdir⟩
  · cases hnew

theorem Real.update_new {loc : Loc} {entry : Entry} (hloc : fs loc = none) (h : fs.Real p) :
    FileTree.Real (Function.update fs loc (some entry)) p := by
  have hkeep (q : Loc) (hq : fs q ≠ none) : Function.update fs loc (some entry) q = fs q := by
    apply Function.update_of_ne
    rintro rfl
    exact hq hloc
  induction p with
  | nil => trivial
  | cons name dir ih =>
    obtain ⟨hdir, hisDir, hproper, old, hold, hnolink⟩ := h
    refine ⟨ih hdir, ?_, hproper, old, ?_, hnolink⟩
    · cases dir with
      | nil => rfl
      | cons name' dir' =>
        simp only [isDirAt, beq_iff_eq] at hisDir ⊢
        rw [hkeep _ (by simp [hisDir])]
        exact hisDir
    · rw [hkeep _ (by simp [hold])]
      exact hold

theorem Real.mkdir (h : fs.Real dir) (hproper : properName name = true)
    (hmade : fs.mkdir limit (name :: dir) = some made) : made.Real (name :: dir) := by
  obtain ⟨rfl, hfree, hisDir⟩ := mkdir_real h hmade
  refine ⟨h.update_new hfree, ?_, hproper, .dir, Function.update_self _ _ _, rfl⟩
  cases dir with
  | nil => rfl
  | cons name' dir' =>
    have hne : name' :: dir' ≠ name :: name' :: dir' := by simp
    simp only [isDirAt] at hisDir ⊢
    rw [Function.update_of_ne hne]
    exact hisDir

/-- Nothing stands below what is no directory. -/
def IsTree (fs : FileTree) : Prop :=
  ∀ name dir, fs (name :: dir) ≠ none → fs.isDirAt dir = true

def ofEntries (entries : List (Loc × Entry)) : FileTree := fun p => entries.lookup p

theorem isTree_ofEntries {entries : List (Loc × Entry)}
    (h : ∀ entry ∈ entries, (ofEntries entries).isDirAt entry.1.tail = true) :
    (ofEntries entries).IsTree := by
  intro name dir hentry
  obtain ⟨entry, hfound⟩ := Option.ne_none_iff_exists'.mp hentry
  obtain ⟨before, after, hsplit, -⟩ := List.lookup_eq_some_iff.mp hfound
  have hmem : (name :: dir, entry) ∈ entries := by simp [hsplit]
  exact h _ hmem

theorem isDirAt_update_dir {loc : Loc} (h : fs.isDirAt p = true) :
    isDirAt (Function.update fs loc (some .dir)) p = true := by
  cases p with
  | nil => rfl
  | cons name dir =>
    simp only [isDirAt, beq_iff_eq] at h ⊢
    by_cases hloc : name :: dir = loc
    · rw [hloc]
      exact Function.update_self _ _ _
    · rw [Function.update_of_ne hloc]
      exact h

theorem IsTree.mkdir (h : fs.IsTree) (hdir : fs.Real dir)
    (hmade : fs.mkdir limit (name :: dir) = some made) : made.IsTree := by
  obtain ⟨rfl, -, hisDir⟩ := mkdir_real hdir hmade
  intro name' dir' hentry
  apply isDirAt_update_dir
  by_cases hnew : name' :: dir' = name :: dir
  · cases hnew
    exact hisDir
  · rw [Function.update_of_ne hnew] at hentry
    exact h name' dir' hentry

theorem IsTree.mkdir_empty (h : fs.IsTree) (hdir : fs.Real dir)
    (hmade : fs.mkdir limit (name :: dir) = some made) (name' : String) :
    made (name' :: name :: dir) = none := by
  obtain ⟨rfl, hfree, -⟩ := mkdir_real hdir hmade
  have hne : name' :: name :: dir ≠ name :: dir := by
    intro heq
    have hlength := congrArg List.length heq
    simp at hlength
  rw [Function.update_of_ne hne]
  by_contra hentry
  have hisDir := h name' (name :: dir) hentry
  simp [isDirAt, hfree] at hisDir

theorem pathExists_found {loc : Loc} (h : fs.stat limit p = .found loc) :
    fs.pathExists limit p = true := by
  rw [pathExists, h]

theorem pathExists_missing (h : ∀ loc, fs.stat limit p ≠ .found loc) :
    fs.pathExists limit p = false := by
  rw [pathExists]
  split
  · next loc hfound => exact absurd hfound (h loc)
  · rfl

theorem isDir_real (h : fs.Real p) : fs.isDir limit p = fs.isDirAt p := by
  rw [isDir, stat_real h]

theorem mkdirAll_dir (h : fs.Real p) (hdir : fs.isDirAt p = true) :
    fs.mkdirAll limit p = some fs := by
  cases p with
  | nil => rfl
  | cons name dir =>
    rw [mkdirAll, isDir_real h, hdir]
    rfl

theorem mkdirAll_real (h : fs.Real p) (hmade : fs.mkdirAll limit p = some made) :
    made = fs := by
  cases p with
  | nil => exact (Option.some.inj hmade).symm
  | cons name dir =>
    rw [mkdirAll, isDir_real h] at hmade
    split at hmade
    · exact (Option.some.inj hmade).symm
    · rw [mkdirAll_dir h.1 h.2.1, Option.bind_some] at hmade
      obtain ⟨_, hfree, _⟩ := mkdir_real h.1 hmade
      obtain ⟨_, _, _, entry, hentry, _⟩ := h
      rw [hentry] at hfree
      cases hfree

theorem unlink_real {q : Loc} (h : fs.Real p.tail) (hmade : fs.unlink limit p = some made)
    (hq : q ≠ p) : made q = fs q := by
  obtain ⟨loc, hloc, hnew⟩ := Option.bind_eq_some_iff.mp hmade
  have hsame : loc = p := by
    cases p with
    | nil => exact (Option.some.inj hloc).symm
    | cons name dir => exact entryAt_real h hloc
  subst hsame
  split at hnew
  · cases hnew
  · rw [← Option.some.inj hnew]
    exact Function.update_of_ne hq _ _

theorem removeDirAll_real {q : Loc} (h : fs.Real p.tail)
    (hq : ¬ p <:+ q ∨ p = [] ∧ q = []) : (fs.removeDirAll limit p).2 q = fs q := by
  rw [removeDirAll]
  split
  · rfl
  · rcases hq with hq | ⟨-, rfl⟩
    · have hnil : p = [] := by
        cases p with
        | nil => rfl
        | cons name dir =>
          next hloc => cases entryAt_real h hloc
      exact absurd (hnil ▸ List.nil_suffix) hq
    · simp
  · next name dir hloc =>
      have hsame : name :: dir = p := by
        cases p with
        | nil => cases hloc
        | cons name' dir' => exact entryAt_real h hloc
      have hout : ¬ name :: dir <:+ q := by
        rw [hsame]
        rcases hq with hq | ⟨rfl, -⟩
        · exact hq
        · cases hsame
      split
      · exact if_neg hout
      · apply Function.update_of_ne
        rintro rfl
        exact hout List.suffix_rfl
      · rfl

theorem rename_real {name' : String} {q : Loc} (h : fs.Real dir)
    (hmade : fs.rename limit (name :: dir) (name' :: dir) = some made)
    (hsource : ¬ name :: dir <:+ q) (htarget : ¬ name' :: dir <:+ q) : made q = fs q := by
  rw [rename] at hmade
  split at hmade
  · next hloc hloc' =>
      cases entryAt_real h hloc
      cases entryAt_real h hloc'
      dsimp only at hmade
      split at hmade
      · cases hmade
      · split at hmade
        · rw [← Option.some.inj hmade]
        · split at hmade
          · cases hmade
          · rw [← Option.some.inj hmade, moveTree, if_neg htarget, if_neg hsource]
  · cases hmade

end FileTree

end HerdrWebui.Files
