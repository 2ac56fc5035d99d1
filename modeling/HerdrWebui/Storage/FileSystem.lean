import Mathlib.Tactic

/-!
Files as a directory of names over inodes. An open file is its inode, so it
stays readable and writable under the name's back: a rename moves a name to
another inode and leaves the open files alone, a truncating open empties the
inode for everyone who has it open.

Nothing here is about a particular program.
-/

namespace HerdrWebui.Storage

/-- A directory over names `ν` of files with elements `β`. -/
structure FileSystem (ν β : Type*) where
  names : ν → Option Nat
  contents : Nat → List β
  next : Nat

namespace FileSystem

variable {ν β : Type*} [DecidableEq ν]

/-- Open for writing, creating the file or truncating it. -/
def create (fs : FileSystem ν β) (name : ν) : Nat × FileSystem ν β :=
  match fs.names name with
  | some inode =>
    (inode, { fs with contents := Function.update fs.contents inode [] })
  | none =>
    (fs.next,
      { names := Function.update fs.names name (some fs.next)
        contents := Function.update fs.contents fs.next []
        next := fs.next + 1 })

/-- A list with `piece` written at `offset`; a gap before it is filled up. -/
def overwrite (filler : β) (content : List β) (offset : Nat) (piece : List β) :
    List β :=
  content.take offset ++ List.replicate (offset - content.length) filler ++ piece ++
    content.drop (offset + piece.length)

def writeAt (filler : β) (fs : FileSystem ν β) (inode offset : Nat)
    (piece : List β) : FileSystem ν β :=
  { fs with
    contents := Function.update fs.contents inode
      (overwrite filler (fs.contents inode) offset piece) }

/-- Up to `n` elements from `offset`. -/
def readAt (fs : FileSystem ν β) (inode offset n : Nat) : List β :=
  ((fs.contents inode).drop offset).take n

/-- Give the file at `source` the name `target`, which may be taken. -/
def rename (fs : FileSystem ν β) (source target : ν) :
    Option (FileSystem ν β) :=
  (fs.names source).map fun inode =>
    { fs with
      names := Function.update (Function.update fs.names target (some inode))
        source none }

section Create

variable (fs : FileSystem ν β) (name : ν)

@[simp] theorem create_names_self :
    (fs.create name).2.names name = some (fs.create name).1 := by
  unfold create
  split
  · assumption
  · exact Function.update_self name _ _

@[simp] theorem create_contents_self :
    (fs.create name).2.contents (fs.create name).1 = [] := by
  unfold create
  split <;> exact Function.update_self _ _ _

theorem create_next_le : fs.next ≤ (fs.create name).2.next := by
  unfold create
  split
  · exact le_rfl
  · exact Nat.le_succ _

variable {fs name}

theorem create_names_of_ne {name' : ν} (h : name' ≠ name) :
    (fs.create name).2.names name' = fs.names name' := by
  unfold create
  split
  · rfl
  · exact Function.update_of_ne h _ _

/-- A file that has been there under another name, or under none, is not the
created one and stays as it is. -/
theorem create_other {inode : Nat} (hbelow : inode < fs.next)
    (hname : fs.names name ≠ some inode) :
    inode ≠ (fs.create name).1 ∧
      (fs.create name).2.contents inode = fs.contents inode := by
  unfold create
  split
  · next other hother =>
      have hne : inode ≠ other := fun heq => hname (heq ▸ hother)
      exact ⟨hne, Function.update_of_ne hne _ _⟩
  · exact ⟨hbelow.ne, Function.update_of_ne hbelow.ne _ _⟩

end Create

omit [DecidableEq ν] in
theorem writeAt_other {fs : FileSystem ν β} {filler : β} {inode offset other : Nat}
    {piece : List β} (h : other ≠ inode) :
    (fs.writeAt filler inode offset piece).contents other = fs.contents other :=
  Function.update_of_ne h _ _

theorem overwrite_take_append (filler : β) (content : List β) (n k : Nat)
    (hn : n ≤ content.length) :
    overwrite filler (content.take n) n ((content.drop n).take k) =
      content.take (n + k) := by
  have hlen : (content.take n).length = n := List.length_take_of_le hn
  have hrest : (content.take n).drop (n + ((content.drop n).take k).length) = [] :=
    List.drop_eq_nil_of_le (hlen.le.trans (Nat.le_add_right _ _))
  rw [overwrite, hrest, hlen, Nat.sub_self, List.replicate_zero, List.append_nil,
    List.append_nil, List.take_of_length_le hlen.le, List.take_add]

/-- A name has the inode of at most one file and inodes in use are below the
next one. -/
structure WellFormed (fs : FileSystem ν β) : Prop where
  below : ∀ name inode, fs.names name = some inode → inode < fs.next
  injective : ∀ name name' inode, fs.names name = some inode →
    fs.names name' = some inode → name = name'

namespace WellFormed

variable {fs fs' : FileSystem ν β}

theorem create (h : WellFormed fs) (name : ν) : WellFormed (fs.create name).2 := by
  unfold FileSystem.create
  split
  · exact ⟨h.below, h.injective⟩
  · have hnames {a : ν} {inode : Nat}
        (ha : Function.update fs.names name (some fs.next) a = some inode) :
        (a = name ∧ inode = fs.next) ∨ (a ≠ name ∧ fs.names a = some inode) := by
      rcases eq_or_ne a name with rfl | hne
      · rw [Function.update_self, Option.some.injEq] at ha
        exact .inl ⟨rfl, ha.symm⟩
      · rw [Function.update_of_ne hne] at ha
        exact .inr ⟨hne, ha⟩
    constructor
    · intro a inode ha
      rcases hnames ha with ⟨_, rfl⟩ | ⟨_, hold⟩
      · exact Nat.lt_succ_self _
      · exact Nat.lt_succ_of_lt (h.below a inode hold)
    · intro a b inode ha hb
      rcases hnames ha with ⟨rfl, rfl⟩ | ⟨_, holda⟩ <;>
        rcases hnames hb with ⟨rfl, hbi⟩ | ⟨_, holdb⟩
      · rfl
      · exact absurd (h.below b _ holdb) (lt_irrefl _)
      · subst hbi
        exact absurd (h.below a _ holda) (lt_irrefl _)
      · exact h.injective a b inode holda holdb

omit [DecidableEq ν] in
theorem writeAt (h : WellFormed fs) (filler : β) (inode offset : Nat)
    (piece : List β) : WellFormed (fs.writeAt filler inode offset piece) :=
  ⟨h.below, h.injective⟩

theorem rename (h : WellFormed fs) {source target : ν} (hne : source ≠ target)
    (hrename : fs.rename source target = some fs') : WellFormed fs' := by
  obtain ⟨inode, hsource, rfl⟩ := Option.map_eq_some_iff.mp hrename
  have hnames {name : ν} {i : Nat}
      (hname : Function.update (Function.update fs.names target (some inode))
        source none name = some i) :
      (name = target ∧ i = inode) ∨
        (name ≠ target ∧ name ≠ source ∧ fs.names name = some i) := by
    by_cases hs : name = source
    · rw [hs, Function.update_self] at hname
      cases hname
    · rw [Function.update_of_ne hs] at hname
      by_cases ht : name = target
      · rw [ht, Function.update_self, Option.some.injEq] at hname
        exact .inl ⟨ht, hname.symm⟩
      · rw [Function.update_of_ne ht] at hname
        exact .inr ⟨ht, hs, hname⟩
  constructor
  · intro name i hname
    rcases hnames hname with ⟨_, rfl⟩ | ⟨_, _, hold⟩
    · exact h.below source _ hsource
    · exact h.below name i hold
  · intro a b i ha hb
    rcases hnames ha with ⟨rfl, rfl⟩ | ⟨hat, has, holda⟩ <;>
      rcases hnames hb with ⟨rfl, hbi⟩ | ⟨hbt, hbs, holdb⟩
    · rfl
    · exact absurd (h.injective b source _ holdb hsource) hbs
    · subst hbi
      exact absurd (h.injective a source _ holda hsource) has
    · exact h.injective a b i holda holdb

end WellFormed

end FileSystem

end HerdrWebui.Storage
