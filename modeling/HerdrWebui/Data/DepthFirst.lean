import Mathlib.Data.List.Basic
import Mathlib.Logic.Relation

/-!
A search of a graph with a stack, from a list of its edges that may be a cycle or a loop and may
have an edge twice. Each round takes a node off the stack; one that was not there before is
visited, and its successors go on the stack.

Nothing here is about a particular program.
-/

namespace HerdrWebui

section DepthFirst

variable {α : Type} [DecidableEq α] (edges : List (α × α))

def successors (a : α) : List α := (edges.filter (·.1 = a)).map (·.2)

/-- The edges whose ends may still go on the stack. -/
def openEdges (seen : List α) : List (α × α) := edges.filter (·.1 ∉ seen)

theorem mem_successors {a b : α} : b ∈ successors edges a ↔ (a, b) ∈ edges := by
  simp [successors]

theorem length_openEdges_cons {seen : List α} {a : α} (h : a ∉ seen) :
    (openEdges edges (a :: seen)).length + (successors edges a).length =
      (openEdges edges seen).length := by
  unfold openEdges successors
  induction edges with
  | nil => rfl
  | cons edge edges ih =>
    rw [List.length_map] at ih ⊢
    by_cases ha : edge.1 = a
    · simp [ha, h] at ih ⊢
      omega
    · by_cases hseen : edge.1 ∈ seen
      · simp [ha, hseen] at ih ⊢
        omega
      · simp [ha, hseen] at ih ⊢
        omega

/-- The nodes in the order of their visits. A round takes a node off the stack or opens it, so
that there are as many rounds as there are nodes on the stack and open edges. -/
def visitOrder (seen : List α) : (stack : List α) → List α
  | [] => []
  | a :: stack =>
    if a ∈ seen then visitOrder seen stack
    else a :: visitOrder (a :: seen) ((successors edges a).reverse ++ stack)
termination_by stack => stack.length + (openEdges edges seen).length
decreasing_by
  · simp
  · next h =>
      have hopen := length_openEdges_cons edges h
      simp
      omega

theorem visitOrder_nil (seen : List α) : visitOrder edges seen [] = [] := by
  rw [visitOrder]

theorem visitOrder_seen {seen : List α} {a : α} (h : a ∈ seen) (stack : List α) :
    visitOrder edges seen (a :: stack) = visitOrder edges seen stack := by
  rw [visitOrder, if_pos h]

theorem visitOrder_visit {seen : List α} {a : α} (h : a ∉ seen) (stack : List α) :
    visitOrder edges seen (a :: stack) =
      a :: visitOrder edges (a :: seen) ((successors edges a).reverse ++ stack) := by
  rw [visitOrder, if_neg h]

theorem visit_induction {motive : List α → List α → Prop} (nil : ∀ seen, motive seen [])
    (skip : ∀ seen a stack, a ∈ seen → motive seen stack → motive seen (a :: stack))
    (visit : ∀ seen a stack, a ∉ seen →
      motive (a :: seen) ((successors edges a).reverse ++ stack) → motive seen (a :: stack))
    (seen stack : List α) : motive seen stack := by
  fun_induction visitOrder edges seen stack with
  | case1 seen => exact nil seen
  | case2 seen a stack h ih => exact skip seen a stack h ih
  | case3 seen a stack h ih => exact visit seen a stack h ih

theorem visitOrder_closed (seen stack : List α) :
    (∀ a ∈ stack, a ∈ seen ∨ a ∈ visitOrder edges seen stack) ∧
      ∀ a ∈ visitOrder edges seen stack, ∀ b, (a, b) ∈ edges →
        b ∈ seen ∨ b ∈ visitOrder edges seen stack := by
  induction seen, stack using visit_induction edges with
  | nil seen => simp [visitOrder_nil]
  | skip seen a stack h ih =>
    rw [visitOrder_seen edges h, List.forall_mem_cons]
    exact ⟨⟨.inl h, ih.1⟩, ih.2⟩
  | visit seen a stack h ih =>
    obtain ⟨hstack, hclosed⟩ := ih
    have hnext {b : α} (hb : b ∈ a :: seen ∨
        b ∈ visitOrder edges (a :: seen) ((successors edges a).reverse ++ stack)) :
        b ∈ seen ∨ b ∈ visitOrder edges seen (a :: stack) := by
      rw [visitOrder_visit edges h, List.mem_cons]
      rw [List.mem_cons] at hb
      tauto
    constructor
    · intro b hb
      rcases List.mem_cons.mp hb with rfl | hb
      · exact hnext (.inl List.mem_cons_self)
      · exact hnext (hstack b (List.mem_append_right _ hb))
    · intro c hc b hedge
      rw [visitOrder_visit edges h] at hc
      rcases List.mem_cons.mp hc with rfl | hc
      · apply hnext
        apply hstack
        exact List.mem_append_left _ (List.mem_reverse.mpr ((mem_successors edges).mpr hedge))
      · exact hnext (hclosed c hc b hedge)

theorem visitOrder_sound (seen stack : List α) :
    ∀ b ∈ visitOrder edges seen stack,
      ∃ a ∈ stack, Relation.ReflTransGen (fun a b => (a, b) ∈ edges) a b := by
  induction seen, stack using visit_induction edges with
  | nil seen => simp [visitOrder_nil]
  | skip seen a stack h ih =>
    rw [visitOrder_seen edges h]
    intro b hb
    obtain ⟨c, hc, hreach⟩ := ih b hb
    exact ⟨c, List.mem_cons_of_mem _ hc, hreach⟩
  | visit seen a stack h ih =>
    rw [visitOrder_visit edges h]
    intro b hb
    rcases List.mem_cons.mp hb with rfl | hb
    · exact ⟨b, List.mem_cons_self, .refl⟩
    · obtain ⟨c, hc, hreach⟩ := ih b hb
      rcases List.mem_append.mp hc with hnew | hold
      · have hedge := (mem_successors edges).mp (List.mem_reverse.mp hnew)
        exact ⟨a, List.mem_cons_self, .head hedge hreach⟩
      · exact ⟨c, List.mem_cons_of_mem _ hold, hreach⟩

theorem mem_visitOrder_iff (root a : α) :
    a ∈ visitOrder edges [] [root] ↔
      Relation.ReflTransGen (fun a b => (a, b) ∈ edges) root a := by
  obtain ⟨hstack, hclosed⟩ := visitOrder_closed edges [] [root]
  constructor
  · intro h
    obtain ⟨start, hstart, hreach⟩ := visitOrder_sound edges [] [root] a h
    rwa [List.mem_singleton.mp hstart] at hreach
  · intro h
    induction h with
    | refl => exact (hstack root List.mem_cons_self).resolve_left List.not_mem_nil
    | tail _ hedge ih => exact (hclosed _ ih _ hedge).resolve_left List.not_mem_nil

/-- The stack holds for each visited node, the latest first, what is left of its successors; those
that are gone have been seen. -/
inductive Pending (seen : List α) : (visited stack : List α) → Prop where
  | nil : Pending seen [] []
  | cons (a : α) {visited stack gone left : List α} (h : Pending seen visited stack)
      (hleft : (successors edges a).reverse = gone ++ left) (hgone : ∀ b ∈ gone, b ∈ seen) :
      Pending seen (a :: visited) (left ++ stack)

/-- A node is the next one in depth: the latest of the visited nodes with a successor that is not
seen leads to it, and it is the last of them in the order of the edges. -/
def NextInDepth (visited : List α) (a : α) : Prop :=
  ∃ late parent early gone left, visited = late ++ parent :: early ∧
    (∀ b ∈ late, ∀ c ∈ successors edges b, c ∈ visited) ∧
      (successors edges parent).reverse = gone ++ a :: left ∧ (∀ c ∈ gone, c ∈ visited) ∧
        a ∉ visited

variable {edges}

theorem Pending.mono {seen seen' visited stack : List α} (h : Pending edges seen visited stack)
    (hsub : ∀ a ∈ seen, a ∈ seen') : Pending edges seen' visited stack := by
  induction h with
  | nil => exact .nil
  | cons a h hleft hgone ih => exact .cons a ih hleft fun b hb => hsub b (hgone b hb)

theorem Pending.visit {seen visited stack : List α} (h : Pending edges seen visited stack) (a : α) :
    Pending edges seen (a :: visited) ((successors edges a).reverse ++ stack) := by
  apply Pending.cons a h (List.nil_append _).symm
  exact fun b hb => absurd hb List.not_mem_nil

theorem Pending.pop {seen visited stack : List α} {a : α}
    (h : Pending edges seen visited (a :: stack)) :
    Pending edges (a :: seen) visited stack ∧
      ∃ late parent early gone left, visited = late ++ parent :: early ∧
        (∀ b ∈ late, ∀ c ∈ successors edges b, c ∈ seen) ∧
          (successors edges parent).reverse = gone ++ a :: left ∧ ∀ c ∈ gone, c ∈ seen := by
  generalize hpile : a :: stack = pile at h
  induction h generalizing stack with
  | nil => cases hpile
  | @cons b visited rest gone left h hleft hgone ih =>
    cases left with
    | nil =>
      obtain ⟨hpending, late, parent, early, gone', left', hvisited, hlate, hparent, hgone'⟩ :=
        ih hpile
      constructor
      · apply Pending.cons b hpending hleft
        exact fun c hc => List.mem_cons_of_mem _ (hgone c hc)
      · refine ⟨b :: late, parent, early, gone', left', congrArg _ hvisited, ?_, hparent,
          hgone'⟩
        rw [List.forall_mem_cons]
        refine ⟨fun c hc => hgone c ?_, hlate⟩
        rwa [← List.mem_reverse, hleft, List.append_nil] at hc
    | cons top left =>
      obtain ⟨rfl, rfl⟩ := List.cons_eq_cons.mp hpile
      constructor
      · apply Pending.cons b (h.mono fun c hc => List.mem_cons_of_mem _ hc)
          (hleft.trans (List.append_cons ..))
        rw [List.forall_mem_append, List.forall_mem_singleton]
        exact ⟨fun c hc => List.mem_cons_of_mem _ (hgone c hc), List.mem_cons_self⟩
      · exact ⟨[], b, visited, gone, left, rfl, nofun, hleft, hgone⟩

theorem nextInDepth_of_pending {seen stack : List α} (h : Pending edges seen seen stack)
    {front back : List α} {a : α} (horder : visitOrder edges seen stack = front ++ a :: back) :
    NextInDepth edges (front.reverse ++ seen) a := by
  induction seen, stack using visit_induction edges generalizing front with
  | nil seen =>
    rw [visitOrder_nil] at horder
    exact absurd horder.symm (List.append_ne_nil_of_right_ne_nil _ (List.cons_ne_nil _ _))
  | skip seen b stack hb ih =>
    rw [visitOrder_seen edges hb] at horder
    apply ih _ horder
    exact h.pop.1.mono fun c hc => (List.mem_cons.mp hc).elim (fun heq => heq ▸ hb) id
  | visit seen b stack hb ih =>
    rw [visitOrder_visit edges hb] at horder
    obtain ⟨hpending, late, parent, early, gone, left, hseen, hlate, hparent, hgone⟩ := h.pop
    cases front with
    | nil =>
      obtain ⟨rfl, -⟩ := List.cons_eq_cons.mp horder
      exact ⟨late, parent, early, gone, left, hseen, hlate, hparent, hgone, hb⟩
    | cons first front =>
      obtain ⟨rfl, hrest⟩ := List.cons_eq_cons.mp horder
      rw [List.reverse_cons, List.append_assoc]
      exact ih (hpending.visit b) hrest

variable (edges) in
/-- An order that begins with the root and goes on in depth. -/
structure DepthFirst (root : α) (order : List α) : Prop where
  root : order.head? = some root
  next : ∀ front a back, order = front ++ a :: back → front ≠ [] →
    NextInDepth edges front.reverse a

theorem depthFirst_of_isPrefix {root : α} {order : List α} (hne : order ≠ [])
    (h : order <+: visitOrder edges [] [root]) : DepthFirst edges root order := by
  rw [visitOrder_visit edges List.not_mem_nil, List.append_nil] at h
  obtain ⟨back, hback⟩ := h
  cases order with
  | nil => exact absurd rfl hne
  | cons first order =>
    obtain ⟨rfl, hrest⟩ := List.cons_eq_cons.mp hback
    refine ⟨rfl, ?_⟩
    intro front a rest horder hfront
    cases front with
    | nil => exact absurd rfl hfront
    | cons first' front =>
      obtain ⟨rfl, htail⟩ := List.cons_eq_cons.mp horder
      change order ++ back = _ at hrest
      change order = front ++ a :: rest at htail
      rw [htail, List.append_assoc] at hrest
      have hroot : Pending edges [first] [first] ((successors edges first).reverse ++ []) :=
        Pending.nil.visit first
      rw [List.append_nil] at hroot
      rw [List.reverse_cons]
      exact nextInDepth_of_pending hroot hrest.symm

end DepthFirst

end HerdrWebui
