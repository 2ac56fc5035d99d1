import HerdrWebui.Data.DepthFirst

/-!
The processes of a pane: the test of one process, which walks down from the root of the pane until
it comes to it, and the set of all of them, for which the walk is made once. The table is what the
system lists, with any pids in it.
-/

namespace HerdrWebui.Agent

structure ProcessRow where
  pid : Nat
  ppid : Nat
  deriving DecidableEq

section PaneProcesses

variable (processes : List ProcessRow)

/-- The map of the children, as the table lists them. -/
def paneChildLinks : List (Nat × Nat) := processes.map fun process => (process.ppid, process.pid)

/-- The pids on the stack, its top first. A pid is compared before it is marked as seen. -/
def pidInTreeGo (pid : Nat) (seen : List Nat) : (stack : List Nat) → Bool
  | [] => false
  | current :: stack =>
    if current = pid then true
    else if current ∈ seen then pidInTreeGo pid seen stack
    else
      pidInTreeGo pid (current :: seen)
        ((successors (paneChildLinks processes) current).reverse ++ stack)
termination_by stack => stack.length + (openEdges (paneChildLinks processes) seen).length
decreasing_by
  · simp
  · next h =>
      have hopen := length_openEdges_cons (paneChildLinks processes) h
      simp
      omega

def processTreeGo (tree : List Nat) : (stack : List Nat) → List Nat
  | [] => tree
  | current :: stack =>
    if current ∈ tree then processTreeGo tree stack
    else
      processTreeGo (current :: tree)
        ((successors (paneChildLinks processes) current).reverse ++ stack)
termination_by stack => stack.length + (openEdges (paneChildLinks processes) tree).length
decreasing_by
  · simp
  · next h =>
      have hopen := length_openEdges_cons (paneChildLinks processes) h
      simp
      omega

end PaneProcesses

def pidInTree (pid : Nat) (rootPid : Option Nat) (processes : List ProcessRow) : Bool :=
  match rootPid with
  | none => false
  | some rootPid => pidInTreeGo processes pid [] [rootPid]

def processTree (rootPid : Option Nat) (processes : List ProcessRow) : List Nat :=
  match rootPid with
  | none => []
  | some rootPid => processTreeGo processes [] [rootPid]

section Walks

variable {processes : List ProcessRow}

/-- As long as the pid was not seen, the test finds it where the visits come to it. -/
theorem pidInTreeGo_iff {pid : Nat} (seen stack : List Nat) (hpid : pid ∉ seen) :
    pidInTreeGo processes pid seen stack = true ↔
      pid ∈ visitOrder (paneChildLinks processes) seen stack := by
  induction seen, stack using visit_induction (paneChildLinks processes) with
  | nil seen => simp [pidInTreeGo, visitOrder_nil]
  | skip seen current stack h ih =>
    have hne : current ≠ pid := fun heq => hpid (heq ▸ h)
    rw [pidInTreeGo, if_neg hne, if_pos h, visitOrder_seen _ h, ih hpid]
  | visit seen current stack h ih =>
    rw [pidInTreeGo, visitOrder_visit _ h, List.mem_cons]
    by_cases heq : current = pid
    · rw [if_pos heq]
      exact ⟨fun _ => .inl heq.symm, fun _ => rfl⟩
    · rw [if_neg heq, if_neg h, ih (by simp [hpid, Ne.symm heq])]
      exact ⟨.inr, fun hmem => hmem.resolve_left (Ne.symm heq)⟩

theorem mem_processTreeGo_iff {pid : Nat} (tree stack : List Nat) :
    pid ∈ processTreeGo processes tree stack ↔
      pid ∈ tree ∨ pid ∈ visitOrder (paneChildLinks processes) tree stack := by
  induction tree, stack using visit_induction (paneChildLinks processes) with
  | nil tree => simp [processTreeGo, visitOrder_nil]
  | skip tree current stack h ih => rw [processTreeGo, if_pos h, visitOrder_seen _ h, ih]
  | visit tree current stack h ih =>
    rw [processTreeGo, if_neg h, visitOrder_visit _ h, ih, List.mem_cons, List.mem_cons]
    tauto

theorem processTreeGo_nodup (tree stack : List Nat) (htree : tree.Nodup) :
    (processTreeGo processes tree stack).Nodup := by
  induction tree, stack using visit_induction (paneChildLinks processes) with
  | nil tree => rwa [processTreeGo]
  | skip tree current stack h ih =>
    rw [processTreeGo, if_pos h]
    exact ih htree
  | visit tree current stack h ih =>
    rw [processTreeGo, if_neg h]
    exact ih (List.nodup_cons.mpr ⟨h, htree⟩)

end Walks

/-- Of every process table, the set holds just the pids that pass the test, each of them once:
those that the parent links lead to from the root. -/
theorem processTree_pidInTree (rootPid : Option Nat) (processes : List ProcessRow) :
    (processTree rootPid processes).Nodup ∧ ∀ pid,
      (pid ∈ processTree rootPid processes ↔ pidInTree pid rootPid processes = true) ∧
        (pidInTree pid rootPid processes = true ↔
          ∃ root, rootPid = some root ∧ Relation.ReflTransGen
            (fun parent child => (⟨child, parent⟩ : ProcessRow) ∈ processes) root pid) := by
  cases rootPid with
  | none => simp [processTree, pidInTree]
  | some root =>
    have hlinks : (fun parent child => (parent, child) ∈ paneChildLinks processes) =
        fun parent child => (⟨child, parent⟩ : ProcessRow) ∈ processes := by
      funext parent child
      simp only [paneChildLinks, List.mem_map, Prod.mk.injEq, eq_iff_iff]
      constructor
      · rintro ⟨process, hprocess, rfl, rfl⟩
        exact hprocess
      · intro hmem
        exact ⟨_, hmem, rfl, rfl⟩
    refine ⟨processTreeGo_nodup [] [root] List.nodup_nil, fun pid => ⟨?_, ?_⟩⟩
    · rw [processTree, pidInTree, mem_processTreeGo_iff, pidInTreeGo_iff _ _ List.not_mem_nil]
      exact or_iff_right List.not_mem_nil
    · rw [pidInTree, pidInTreeGo_iff _ _ List.not_mem_nil, mem_visitOrder_iff, hlinks]
      simp

/-- A root with a child, a cycle that the root does not lead to, and a pid listed twice. -/
example : processTree (some 1) [⟨1, 0⟩, ⟨2, 1⟩, ⟨7, 5⟩, ⟨5, 7⟩, ⟨2, 9⟩] = [2, 1] := by
  simp [processTree, processTreeGo, successors, paneChildLinks]

end HerdrWebui.Agent
