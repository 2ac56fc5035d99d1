import Mathlib.Data.List.Count
import Mathlib.Tactic

/-!
Ordered trees with values at the leaves and labels at the nodes. A node is found by the key of its
label, as an object is by its identity: an edit of the children of a node is made wherever the node
stands, and a tree without the node stays as it is. Taking a leaf out promotes the sibling that is
left alone.

Nothing here is about a particular program.
-/

namespace HerdrWebui

inductive OrderedTree (α β : Type*) where
  | leaf (a : α)
  | node (b : β) (children : List (OrderedTree α β))

namespace OrderedTree

variable {α β γ κ : Type*}

theorem induct {motive : OrderedTree α β → Prop} (leaf : ∀ a, motive (.leaf a))
    (node : ∀ b children, (∀ child ∈ children, motive child) → motive (.node b children))
    (t : OrderedTree α β) : motive t :=
  @OrderedTree.rec α β motive (fun children => ∀ child ∈ children, motive child) leaf node
    (by simp) (fun _ _ hchild hrest => by simpa using ⟨hchild, hrest⟩) t

mutual

/-- What is made of a leaf, and of a node from what is made of its children. -/
def fold (f : α → γ) (g : β → List γ → γ) : OrderedTree α β → γ
  | .leaf a => f a
  | .node b children => g b (foldAll f g children)

def foldAll (f : α → γ) (g : β → List γ → γ) : List (OrderedTree α β) → List γ
  | [] => []
  | child :: rest => fold f g child :: foldAll f g rest

end

theorem foldAll_eq_map (f : α → γ) (g : β → List γ → γ) (children : List (OrderedTree α β)) :
    foldAll f g children = children.map (fold f g) := by
  induction children with
  | nil => rfl
  | cons child rest ih => rw [foldAll, ih, List.map_cons]

theorem fold_node (f : α → γ) (g : β → List γ → γ) (b : β) (children : List (OrderedTree α β)) :
    fold f g (.node b children) = g b (children.map (fold f g)) := by
  rw [fold, foldAll_eq_map]

def leaves (t : OrderedTree α β) : List α := t.fold (fun a => [a]) fun _ => List.flatten

def labels (t : OrderedTree α β) : List β := t.fold (fun _ => []) fun b rest => b :: rest.flatten

@[simp] theorem leaves_leaf (a : α) : (leaf a : OrderedTree α β).leaves = [a] := rfl

@[simp] theorem labels_leaf (a : α) : (leaf a : OrderedTree α β).labels = [] := rfl

@[simp] theorem leaves_node (b : β) (children : List (OrderedTree α β)) :
    (node b children).leaves = children.flatMap leaves := by
  rw [leaves, fold_node, ← List.flatMap_def]
  rfl

@[simp] theorem labels_node (b : β) (children : List (OrderedTree α β)) :
    (node b children).labels = b :: children.flatMap labels := by
  rw [labels, fold_node, ← List.flatMap_def]
  rfl

/-- A property of the label and the number of children of every node. -/
inductive Everywhere (P : β → Nat → Prop) : OrderedTree α β → Prop
  | leaf (a : α) : Everywhere P (.leaf a)
  | node {b : β} {children : List (OrderedTree α β)} :
      P b children.length → (∀ child ∈ children, Everywhere P child) →
      Everywhere P (.node b children)

theorem Everywhere.mono {P Q : β → Nat → Prop} (himp : ∀ b n, P b n → Q b n) {t : OrderedTree α β}
    (h : t.Everywhere P) : t.Everywhere Q := by
  induction h with
  | leaf a => exact .leaf a
  | node hnode _ ih => exact .node (himp _ _ hnode) ih

def Branching : OrderedTree α β → Prop := Everywhere fun _ n => 2 ≤ n

theorem Branching.of_mem {b : β} {children : List (OrderedTree α β)}
    (h : Branching (.node b children)) {child : OrderedTree α β} (hmem : child ∈ children) :
    Branching child := by
  cases h with
  | node _ hchildren => exact hchildren child hmem

theorem Branching.two_le {b : β} {children : List (OrderedTree α β)}
    (h : Branching (.node b children)) : 2 ≤ children.length := by
  cases h with
  | node htwo _ => exact htwo

theorem Branching.leaves_ne_nil {t : OrderedTree α β} (h : t.Branching) : t.leaves ≠ [] := by
  induction t using induct with
  | leaf a => exact List.cons_ne_nil a []
  | node b children ih =>
    have htwo := h.two_le
    obtain ⟨child, rest, rfl⟩ : ∃ child rest, children = child :: rest := by
      cases children with
      | nil => exact absurd htwo (by simp)
      | cons child rest => exact ⟨child, rest, rfl⟩
    rw [leaves_node, List.flatMap_cons]
    exact List.append_ne_nil_of_left_ne_nil
      (ih child List.mem_cons_self (h.of_mem List.mem_cons_self)) _

theorem Branching.eq_leaf {t : OrderedTree α β} (h : t.Branching) {a : α} (ha : t.leaves = [a]) :
    t = leaf a := by
  cases t with
  | leaf a' => rw [leaves_leaf, List.cons.injEq] at ha; rw [ha.1]
  | node b children =>
    match children, h.two_le with
    | first :: second :: rest, _ =>
      have hfirst : first.leaves ≠ [] := (h.of_mem (by simp)).leaves_ne_nil
      have hsecond : second.leaves ≠ [] := (h.of_mem (by simp)).leaves_ne_nil
      have hlength := congrArg List.length ha
      rw [← List.length_pos_iff] at hfirst hsecond
      simp only [leaves_node, List.flatMap_cons, List.length_append, List.length_singleton]
        at hlength
      omega

def mapLeaves (f : α → α) (t : OrderedTree α β) : OrderedTree α β :=
  t.fold (fun a => .leaf (f a)) .node

def replaceLeaves (f : α → OrderedTree α β) (t : OrderedTree α β) : OrderedTree α β :=
  t.fold f .node

/-- Other labels, from the label and the number of children of each node. -/
def relabel (f : β → Nat → β) (t : OrderedTree α β) : OrderedTree α β :=
  t.fold .leaf fun b children => .node (f b children.length) children

/-- An edit of the children of the node with a key. -/
def onChildren [DecidableEq κ] (key : β → κ) (k : κ)
    (f : List (OrderedTree α β) → List (OrderedTree α β)) (t : OrderedTree α β) : OrderedTree α β :=
  t.fold .leaf fun b children => .node b (if key b = k then f children else children)

/-- The tree without some leaves. A child that is left alone takes the place of its node. -/
def without (p : α → Bool) (t : OrderedTree α β) : Option (OrderedTree α β) :=
  t.fold (fun a => if p a then none else some (.leaf a)) fun b children =>
    match children.filterMap id with
    | [] => none
    | [child] => some child
    | children => some (.node b children)

mutual

/-- The first child with a property, in the order of a walk: its node, with all children, and its
place among them. -/
def slot (p : OrderedTree α β → Bool) :
    OrderedTree α β → Option (β × List (OrderedTree α β) × Nat)
  | .leaf _ => none
  | .node b children => slotAmong p b children 0 children

def slotAmong (p : OrderedTree α β → Bool) (b : β) (children : List (OrderedTree α β)) (i : Nat) :
    List (OrderedTree α β) → Option (β × List (OrderedTree α β) × Nat)
  | [] => none
  | child :: rest =>
    if p child then some (b, children, i)
    else (slot p child).or (slotAmong p b children (i + 1) rest)

end

def isLeaf (p : α → Bool) : OrderedTree α β → Bool
  | .leaf a => p a
  | .node _ _ => false

def isNode [DecidableEq κ] (key : β → κ) (k : κ) : OrderedTree α β → Bool
  | .leaf _ => false
  | .node b _ => key b = k

theorem mapLeaves_node (f : α → α) (b : β) (children : List (OrderedTree α β)) :
    (node b children).mapLeaves f = node b (children.map (mapLeaves f)) := by
  rw [mapLeaves, fold_node]
  rfl

@[simp] theorem leaves_mapLeaves (f : α → α) (t : OrderedTree α β) :
    (t.mapLeaves f).leaves = t.leaves.map f := by
  induction t using induct with
  | leaf a => rfl
  | node b children ih =>
    rw [mapLeaves_node, leaves_node, leaves_node, List.flatMap_map, List.map_flatMap]
    exact List.flatMap_congr fun child hchild => ih child hchild

@[simp] theorem labels_mapLeaves (f : α → α) (t : OrderedTree α β) :
    (t.mapLeaves f).labels = t.labels := by
  induction t using induct with
  | leaf a => rfl
  | node b children ih =>
    rw [mapLeaves_node, labels_node, labels_node, List.flatMap_map]
    exact congrArg _ (List.flatMap_congr fun child hchild => ih child hchild)

theorem mapLeaves_congr {f g : α → α} {t : OrderedTree α β} (h : ∀ a ∈ t.leaves, f a = g a) :
    t.mapLeaves f = t.mapLeaves g := by
  induction t using induct with
  | leaf a => exact congrArg leaf (h a (by simp))
  | node b children ih =>
    rw [mapLeaves_node, mapLeaves_node]
    refine congrArg (node b) (List.map_congr_left fun child hchild => ?_)
    exact ih child hchild fun a ha => h a (by
      rw [leaves_node, List.mem_flatMap]
      exact ⟨child, hchild, ha⟩)

theorem mapLeaves_mapLeaves (f g : α → α) (t : OrderedTree α β) :
    (t.mapLeaves f).mapLeaves g = t.mapLeaves fun a => g (f a) := by
  induction t using induct with
  | leaf a => rfl
  | node b children ih =>
    rw [mapLeaves_node, mapLeaves_node, mapLeaves_node, List.map_map]
    exact congrArg (node b) (List.map_congr_left fun child hchild => ih child hchild)

theorem mapLeaves_id (t : OrderedTree α β) : t.mapLeaves (fun a => a) = t := by
  induction t using induct with
  | leaf a => rfl
  | node b children ih =>
    rw [mapLeaves_node]
    exact congrArg (node b)
      ((List.map_congr_left fun child hchild => ih child hchild).trans (List.map_id _))

theorem everywhere_mapLeaves {P : β → Nat → Prop} {t : OrderedTree α β} (h : t.Everywhere P)
    (f : α → α) : (t.mapLeaves f).Everywhere P := by
  induction h with
  | leaf a => exact .leaf (f a)
  | node hnode _ ih =>
    rw [mapLeaves_node]
    refine .node (by rwa [List.length_map]) fun edited hedited => ?_
    obtain ⟨child, hchild, rfl⟩ := List.mem_map.mp hedited
    exact ih child hchild

theorem replaceLeaves_node (f : α → OrderedTree α β) (b : β) (children : List (OrderedTree α β)) :
    (node b children).replaceLeaves f = node b (children.map (replaceLeaves f)) := by
  rw [replaceLeaves, fold_node]
  rfl

@[simp] theorem leaves_replaceLeaves (f : α → OrderedTree α β) (t : OrderedTree α β) :
    (t.replaceLeaves f).leaves = t.leaves.flatMap fun a => (f a).leaves := by
  induction t using induct with
  | leaf a => simp [replaceLeaves, fold]
  | node b children ih =>
    rw [replaceLeaves_node, leaves_node, leaves_node, List.flatMap_map, List.flatMap_assoc]
    exact List.flatMap_congr fun child hchild => ih child hchild

theorem labels_replaceLeaves (f : α → OrderedTree α β) (t : OrderedTree α β) :
    (t.replaceLeaves f).labels.Perm (t.labels ++ t.leaves.flatMap fun a => (f a).labels) := by
  induction t using induct with
  | leaf a => simp [replaceLeaves, fold]
  | node b children ih =>
    rw [replaceLeaves_node, labels_node, labels_node, leaves_node, List.flatMap_map,
      List.flatMap_assoc, List.cons_append]
    refine .cons b (.trans ?_ (List.flatMap_append_perm _ _ _).symm)
    exact List.Perm.flatMap_left _ fun child hchild => ih child hchild

theorem everywhere_replaceLeaves {P : β → Nat → Prop} {t : OrderedTree α β} (h : t.Everywhere P)
    {f : α → OrderedTree α β} (hf : ∀ a ∈ t.leaves, (f a).Everywhere P) :
    (t.replaceLeaves f).Everywhere P := by
  induction h with
  | leaf a => exact hf a (by simp)
  | node hnode _ ih =>
    rw [replaceLeaves_node]
    refine .node (by rwa [List.length_map]) fun edited hedited => ?_
    obtain ⟨child, hchild, rfl⟩ := List.mem_map.mp hedited
    exact ih child hchild fun a ha => hf a (by
      rw [leaves_node, List.mem_flatMap]
      exact ⟨child, hchild, ha⟩)

theorem relabel_node (f : β → Nat → β) (b : β) (children : List (OrderedTree α β)) :
    (node b children).relabel f = node (f b children.length) (children.map (relabel f)) := by
  rw [relabel, fold_node, List.length_map]
  rfl

@[simp] theorem leaves_relabel (f : β → Nat → β) (t : OrderedTree α β) :
    (t.relabel f).leaves = t.leaves := by
  induction t using induct with
  | leaf a => rfl
  | node b children ih =>
    rw [relabel_node, leaves_node, leaves_node, List.flatMap_map]
    exact List.flatMap_congr fun child hchild => ih child hchild

theorem map_labels_relabel {f : β → Nat → β} {key : β → κ} (hkey : ∀ b n, key (f b n) = key b)
    (t : OrderedTree α β) : (t.relabel f).labels.map key = t.labels.map key := by
  induction t using induct with
  | leaf a => rfl
  | node b children ih =>
    rw [relabel_node, labels_node, labels_node, List.map_cons, List.map_cons, hkey,
      List.flatMap_map, List.map_flatMap, List.map_flatMap]
    exact congrArg _ (List.flatMap_congr fun child hchild => ih child hchild)

theorem everywhere_relabel {P Q : β → Nat → Prop} {f : β → Nat → β}
    (hf : ∀ b n, P b n → Q (f b n) n) {t : OrderedTree α β} (h : t.Everywhere P) :
    (t.relabel f).Everywhere Q := by
  induction h with
  | leaf a => exact .leaf a
  | node hnode _ ih =>
    rw [relabel_node]
    refine .node (by rw [List.length_map]; exact hf _ _ hnode) fun edited hedited => ?_
    obtain ⟨child, hchild, rfl⟩ := List.mem_map.mp hedited
    exact ih child hchild

theorem onChildren_node [DecidableEq κ] (key : β → κ) (k : κ)
    (f : List (OrderedTree α β) → List (OrderedTree α β)) (b : β)
    (children : List (OrderedTree α β)) :
    (node b children).onChildren key k f =
      node b (if key b = k then f (children.map (onChildren key k f))
        else children.map (onChildren key k f)) := by
  rw [onChildren, fold_node]
  rfl

theorem onChildren_eq_self [DecidableEq κ] {key : β → κ} {k : κ}
    (f : List (OrderedTree α β) → List (OrderedTree α β)) {t : OrderedTree α β}
    (h : k ∉ t.labels.map key) : t.onChildren key k f = t := by
  induction t using induct with
  | leaf a => rfl
  | node b children ih =>
    rw [labels_node, List.map_cons, List.mem_cons, not_or, List.map_flatMap] at h
    rw [onChildren_node, if_neg fun hkey => h.1 hkey.symm]
    refine congrArg (node b) ((List.map_congr_left fun child hchild => ?_).trans (List.map_id _))
    exact ih child hchild fun hmem => h.2 (List.mem_flatMap.mpr ⟨child, hchild, hmem⟩)

section Without

variable (p : α → Bool)

theorem flatMap_filterMap {ε δ : Type*} (g : γ → Option δ) (f : δ → List ε) (l : List γ) :
    (l.filterMap g).flatMap f = l.flatMap fun a => ((g a).map f).getD [] := by
  induction l with
  | nil => rfl
  | cons a l ih =>
    rw [List.flatMap_cons, ← ih]
    cases h : g a with
    | none => rw [List.filterMap_cons_none h, Option.map_none, Option.getD_none, List.nil_append]
    | some d =>
      rw [List.filterMap_cons_some h, List.flatMap_cons, Option.map_some, Option.getD_some]

theorem without_node (b : β) (children : List (OrderedTree α β)) :
    (node b children).without p =
      match children.filterMap (without p) with
      | [] => none
      | [child] => some child
      | children => some (.node b children) := by
  rw [without, fold_node, List.filterMap_map]
  rfl

theorem without_node_of_two_le {b : β} {children kept : List (OrderedTree α β)}
    (hkept : children.filterMap (without p) = kept) (htwo : 2 ≤ kept.length) :
    (node b children).without p = some (node b kept) := by
  rw [without_node, hkept]
  match kept, htwo with
  | _ :: _ :: _, _ => rfl

theorem leaves_without (t : OrderedTree α β) :
    ((t.without p).map leaves).getD [] = t.leaves.filter fun a => !p a := by
  induction t using induct with
  | leaf a => cases h : p a <;> simp [without, fold, h]
  | node b children ih =>
    have hrest : (children.filterMap (without p)).flatMap leaves =
        (children.flatMap leaves).filter fun a => !p a := by
      rw [flatMap_filterMap, List.filter_flatMap]
      exact List.flatMap_congr fun child hchild => ih child hchild
    rw [without_node, leaves_node, ← hrest]
    split
    · next hnone => rw [hnone]; rfl
    · next child hone => rw [hone]; simp
    · next kept _ _ =>
        rw [Option.map_some, Option.getD_some, leaves_node]

theorem leaves_of_without {t t' : OrderedTree α β} (h : t.without p = some t') :
    t'.leaves = t.leaves.filter fun a => !p a := by
  rw [← leaves_without, h]
  rfl

theorem without_eq_none_iff {t : OrderedTree α β} :
    t.without p = none ↔ ∀ a ∈ t.leaves, p a = true := by
  induction t using induct with
  | leaf a => simp [without, fold]
  | node b children ih =>
    have hnone : (node b children).without p = none ↔
        children.filterMap (without p) = [] := by
      rcases hlist : children.filterMap (without p) with - | ⟨x, - | ⟨y, l⟩⟩ <;>
        simp [without_node, hlist]
    rw [hnone, List.filterMap_eq_nil_iff, leaves_node]
    simp only [List.mem_flatMap]
    constructor
    · rintro h a ⟨child, hchild, ha⟩
      exact (ih child hchild).mp (h child hchild) a ha
    · exact fun h child hchild => (ih child hchild).mpr fun a ha => h a ⟨child, hchild, ha⟩

theorem without_congr {p q : α → Bool} {t : OrderedTree α β} (h : ∀ a ∈ t.leaves, p a = q a) :
    t.without p = t.without q := by
  induction t using induct with
  | leaf a => simp [without, fold, h a (by simp)]
  | node b children ih =>
    have hkept : children.filterMap (without p) = children.filterMap (without q) :=
      List.filterMap_congr fun child hchild => ih child hchild fun a ha => h a (by
        rw [leaves_node, List.mem_flatMap]
        exact ⟨child, hchild, ha⟩)
    rw [without_node, without_node, hkept]

theorem without_eq_self {t : OrderedTree α β} (hbranching : t.Branching)
    (h : ∀ a ∈ t.leaves, p a = false) : t.without p = some t := by
  induction t using induct with
  | leaf a =>
    have ha : p a = false := h a (by simp)
    simp [without, fold, ha]
  | node b children ih =>
    have hkept : children.filterMap (without p) = children := by
      rw [List.filterMap_congr (g := some) fun child hchild =>
        ih child hchild (hbranching.of_mem hchild) fun a ha => h a (by
          rw [leaves_node, List.mem_flatMap]
          exact ⟨child, hchild, ha⟩)]
      exact List.filterMap_some
    exact without_node_of_two_le p hkept hbranching.two_le

/-- What holds of every node of a tree holds where leaves are taken out, if it goes on to hold when
children are left out. -/
theorem everywhere_without {P : β → Nat → Prop}
    (hP : ∀ b n m, P b n → 2 ≤ m → m ≤ n → P b m)
    {t t' : OrderedTree α β} (h : t.Everywhere P) (ht' : t.without p = some t') :
    t'.Everywhere P := by
  induction t using induct generalizing t' with
  | leaf a =>
    simp only [without, fold] at ht'
    split at ht'
    · cases ht'
    · obtain rfl := Option.some.inj ht'
      exact .leaf a
  | node b children ih =>
    cases h with
    | node hnode hchildren =>
      have hkept : ∀ kept ∈ children.filterMap (without p), kept.Everywhere P := by
        intro kept hkept
        obtain ⟨child, hchild, heq⟩ := List.mem_filterMap.mp hkept
        exact ih child hchild (hchildren child hchild) heq
      rw [without_node] at ht'
      split at ht'
      · cases ht'
      · next child hone =>
          obtain rfl := Option.some.inj ht'
          exact hkept child (by rw [hone]; exact List.mem_singleton_self child)
      · next hnil hone =>
          obtain rfl := Option.some.inj ht'
          refine .node (hP b _ _ hnode ?_ (List.length_filterMap_le _ _)) hkept
          rcases hlist : children.filterMap (without p) with - | ⟨x, - | ⟨y, l⟩⟩
          · exact absurd hlist hnil
          · exact absurd hlist (hone x)
          · simp

theorem without_without (q : α → Bool) (t : OrderedTree α β) :
    (t.without p).bind (without q) = t.without fun a => p a || q a := by
  induction t using induct with
  | leaf a => cases hp : p a <;> cases hq : q a <;> simp [without, fold, hp, hq]
  | node b children ih =>
    have hrest : children.filterMap (without fun a => p a || q a) =
        (children.filterMap (without p)).filterMap (without q) := by
      rw [List.filterMap_filterMap]
      exact List.filterMap_congr fun child hchild => (ih child hchild).symm
    rw [without_node, without_node, hrest]
    split
    · next hnone => rw [hnone]; rfl
    · next child hone =>
        rw [hone, Option.bind_some, List.filterMap_cons]
        cases child.without q <;> rfl
    · rw [Option.bind_some, without_node]

theorem sublist_labels_without {t t' : OrderedTree α β} (h : t.without p = some t') :
    t'.labels.Sublist t.labels := by
  induction t using induct generalizing t' with
  | leaf a =>
    simp only [without, fold] at h
    split at h
    · cases h
    · obtain rfl := Option.some.inj h
      exact .refl _
  | node b children ih =>
    have hall : ((children.filterMap (without p)).flatMap labels).Sublist
        (children.flatMap labels) := by
      rw [flatMap_filterMap]
      refine List.Sublist.flatMap_right _ fun child hchild => ?_
      cases heq : child.without p with
      | none => exact List.nil_sublist _
      | some kept => exact ih child hchild heq
    rw [without_node] at h
    rw [labels_node]
    split at h
    · cases h
    · next child hone =>
        obtain rfl := Option.some.inj h
        rw [hone, List.flatMap_singleton] at hall
        exact hall.cons b
    · obtain rfl := Option.some.inj h
      rw [labels_node]
      exact hall.cons_cons b

end Without

/-- The leaf with a property is among the children of a node of the tree, between those in front
of it and those behind. -/
inductive Holds (p : α → Bool) :
    OrderedTree α β → β → List (OrderedTree α β) → α → List (OrderedTree α β) → Prop
  | here (b : β) (front : List (OrderedTree α β)) {a : α} (back : List (OrderedTree α β)) :
      p a = true → Holds p (node b (front ++ leaf a :: back)) b front a back
  | there (b' : β) (before after : List (OrderedTree α β)) {child : OrderedTree α β} {b : β}
      {front back : List (OrderedTree α β)} {a : α} :
      Holds p child b front a back →
      Holds p (node b' (before ++ child :: after)) b front a back

namespace Holds

variable {p : α → Bool} {t : OrderedTree α β} {b : β} {front back : List (OrderedTree α β)} {a : α}

theorem isTrue (h : Holds p t b front a back) : p a = true := by
  induction h with
  | here _ _ _ ha => exact ha
  | there _ _ _ _ ih => exact ih

theorem mem_leaves (h : Holds p t b front a back) : a ∈ t.leaves := by
  induction h with
  | here b front back _ => simp
  | there b' before after _ ih =>
    rw [leaves_node, List.mem_flatMap]
    exact ⟨_, by simp, ih⟩

theorem mem_labels (h : Holds p t b front a back) : b ∈ t.labels := by
  induction h with
  | here b front back _ => simp
  | there b' before after _ ih =>
    rw [labels_node, List.mem_cons, List.mem_flatMap]
    exact .inr ⟨_, by simp, ih⟩

theorem everywhere {P : β → Nat → Prop} (h : Holds p t b front a back) (hall : t.Everywhere P) :
    P b (front ++ leaf a :: back).length := by
  induction h with
  | here _ _ _ _ =>
    cases hall with
    | node hnode _ => exact hnode
  | there _ _ _ _ ih =>
    cases hall with
    | node _ hchildren => exact ih (hchildren _ (by simp))

theorem sibling_branching (h : Holds p t b front a back) (hbranching : t.Branching) :
    ∀ other ∈ front ++ back, other.Branching := by
  induction h with
  | here b front back _ =>
    intro other hother
    refine hbranching.of_mem ?_
    simp only [List.mem_append, List.mem_cons] at hother ⊢
    tauto
  | there _ _ _ _ ih => exact ih (hbranching.of_mem (by simp))

end Holds

theorem exists_holds {p : α → Bool} {t : OrderedTree α β} {b₀ : β}
    {children : List (OrderedTree α β)} (ht : t = node b₀ children) {a : α} (ha : a ∈ t.leaves)
    (hp : p a = true) : ∃ b front back, Holds p t b front a back := by
  induction t using induct generalizing b₀ children with
  | leaf a => cases ht
  | node b children ih =>
    rw [leaves_node, List.mem_flatMap] at ha
    obtain ⟨child, hchild, ha⟩ := ha
    obtain ⟨before, after, rfl⟩ := List.append_of_mem hchild
    cases child with
    | leaf a' =>
      obtain rfl : a = a' := by simpa using ha
      exact ⟨b, before, after, .here b before after hp⟩
    | node b' children' =>
      obtain ⟨b'', front, back, h⟩ := ih _ hchild rfl ha
      exact ⟨b'', front, back, .there b before after h⟩

section Slot

variable {p : OrderedTree α β → Bool}

theorem slotAmong_append (b : β) (children : List (OrderedTree α β)) (i : Nat)
    (before rest : List (OrderedTree α β))
    (h : ∀ child ∈ before, p child = false ∧ slot p child = none) :
    slotAmong p b children i (before ++ rest) =
      slotAmong p b children (i + before.length) rest := by
  induction before generalizing i with
  | nil => rfl
  | cons child before ih =>
    obtain ⟨hchild, hslot⟩ := h child List.mem_cons_self
    rw [List.cons_append, slotAmong, hchild, hslot, Option.none_or,
      ih (i + 1) fun x hx => h x (List.mem_cons_of_mem child hx), List.length_cons]
    simp [Nat.add_comm, Nat.add_left_comm]

/-- A walk finds nothing in a tree with a property that rules it out and goes to the children. -/
theorem slot_eq_none {C : OrderedTree α β → Prop} (hfalse : ∀ t, C t → p t = false)
    (hchild : ∀ b children, C (node b children) → ∀ child ∈ children, C child)
    {t : OrderedTree α β} (h : C t) : slot p t = none := by
  induction t using induct with
  | leaf a => rfl
  | node b children ih =>
    have hskip := slotAmong_append b children 0 children [] fun child hmem =>
      ⟨hfalse child (hchild b children h child hmem),
        ih child hmem (hchild b children h child hmem)⟩
    rw [List.append_nil] at hskip
    rw [slot, hskip, slotAmong]

theorem slot_here {b : β} {before after : List (OrderedTree α β)} {child : OrderedTree α β}
    (hbefore : ∀ other ∈ before, p other = false ∧ slot p other = none) (hchild : p child = true) :
    slot p (node b (before ++ child :: after)) =
      some (b, before ++ child :: after, before.length) := by
  rw [slot, slotAmong_append _ _ _ _ _ hbefore, slotAmong, if_pos hchild, Nat.zero_add]

theorem slot_there {b : β} {before after : List (OrderedTree α β)} {child : OrderedTree α β}
    (hbefore : ∀ other ∈ before, p other = false ∧ slot p other = none) (hchild : p child = false)
    {place : β × List (OrderedTree α β) × Nat} (hslot : slot p child = some place) :
    slot p (node b (before ++ child :: after)) = some place := by
  rw [slot, slotAmong_append _ _ _ _ _ hbefore, slotAmong, hchild, hslot, Option.some_or]
  rfl

end Slot

section Keys

variable [DecidableEq κ] {key : β → κ} {p : α → Bool}

theorem isLeaf_eq_false {t : OrderedTree α β} (h : ∀ a ∈ t.leaves, p a = false) :
    isLeaf p t = false := by
  cases t with
  | leaf a => exact h a (by simp)
  | node b children => rfl

theorem slot_isLeaf_eq_none {t : OrderedTree α β} (h : ∀ a ∈ t.leaves, p a = false) :
    slot (isLeaf p) t = none := by
  refine slot_eq_none (C := fun t => ∀ a ∈ t.leaves, p a = false) (fun _ => isLeaf_eq_false) ?_ h
  intro b children hall child hchild a ha
  exact hall a (by
    rw [leaves_node, List.mem_flatMap]
    exact ⟨child, hchild, ha⟩)

theorem isNode_eq_false {k : κ} {t : OrderedTree α β} (h : k ∉ t.labels.map key) :
    isNode key k t = false := by
  cases t with
  | leaf a => rfl
  | node b children =>
    rw [labels_node, List.map_cons, List.mem_cons, not_or] at h
    exact decide_eq_false fun hkey => h.1 hkey.symm

theorem slot_isNode_eq_none {k : κ} {t : OrderedTree α β} (h : k ∉ t.labels.map key) :
    slot (isNode key k) t = none := by
  refine slot_eq_none (C := fun t => k ∉ t.labels.map key) (fun _ => isNode_eq_false) ?_ h
  intro b children hall child hchild hmem
  refine hall ?_
  rw [labels_node, List.map_cons, List.mem_cons, List.map_flatMap, List.mem_flatMap]
  exact .inr ⟨child, hchild, hmem⟩

/-- Keys that no two nodes of a tree share. -/
def DistinctKeys (key : β → κ) (t : OrderedTree α β) : Prop := (t.labels.map key).Nodup

instance (t : OrderedTree α β) : Decidable (DistinctKeys key t) :=
  inferInstanceAs (Decidable (List.Nodup _))

omit [DecidableEq κ] in
theorem DistinctKeys.child {b : β} {before after : List (OrderedTree α β)}
    {child : OrderedTree α β} (h : DistinctKeys key (node b (before ++ child :: after))) :
    DistinctKeys key child ∧ key b ∉ child.labels.map key ∧
      (∀ other ∈ before ++ after, key b ∉ other.labels.map key) ∧
      ∀ k ∈ child.labels.map key, k ≠ key b ∧
        ∀ other ∈ before ++ after, k ∉ other.labels.map key := by
  rw [DistinctKeys, labels_node, List.map_cons, List.nodup_cons, List.flatMap_append,
    List.flatMap_cons, List.map_append, List.map_append, List.nodup_append, List.nodup_append] at h
  obtain ⟨hb, -, ⟨hchild, -, hafter⟩, hbefore⟩ := h
  simp only [List.mem_append, not_or] at hb
  have hin : ∀ (l : List (OrderedTree α β)), ∀ other ∈ l, ∀ k ∈ other.labels.map key,
      k ∈ (l.flatMap labels).map key := by
    intro l other hother k hk
    rw [List.map_flatMap, List.mem_flatMap]
    exact ⟨other, hother, hk⟩
  refine ⟨hchild, hb.2.1, fun other hother hk => ?_, fun k hk => ⟨?_, fun other hother hk' => ?_⟩⟩
  · rcases List.mem_append.mp hother with hother | hother
    · exact hb.1 (hin _ other hother _ hk)
    · exact hb.2.2 (hin _ other hother _ hk)
  · rintro rfl
    exact hb.2.1 hk
  · rcases List.mem_append.mp hother with hother | hother
    · exact hbefore k (hin _ other hother k hk') k
        (List.mem_append_left _ hk) rfl
    · exact hafter k hk k (hin _ other hother k hk') rfl

theorem map_onChildren {k : κ} {before after : List (OrderedTree α β)}
    {child : OrderedTree α β} (h : ∀ other ∈ before ++ after, k ∉ other.labels.map key)
    (f : List (OrderedTree α β) → List (OrderedTree α β)) :
    (before ++ child :: after).map (onChildren key k f) =
      before ++ child.onChildren key k f :: after := by
  have hsame : ∀ l ⊆ before ++ after, l.map (onChildren key k f) = l := fun l hl =>
    (List.map_congr_left fun other hother => onChildren_eq_self f (h other (hl hother))).trans
      (List.map_id _)
  rw [List.map_append, List.map_cons, hsame before (List.subset_append_left _ _),
    hsame after (List.subset_append_right _ _)]

theorem not_of_countP_le_one {b : β} {before after : List (OrderedTree α β)}
    {child : OrderedTree α β}
    (h : (node b (before ++ child :: after)).leaves.countP p ≤ 1) {a : α} (ha : a ∈ child.leaves)
    (hp : p a = true) :
    child.leaves.countP p ≤ 1 ∧ ∀ other ∈ before ++ after, ∀ x ∈ other.leaves, p x = false := by
  rw [leaves_node, List.flatMap_append, List.flatMap_cons, List.countP_append,
    List.countP_append] at h
  have hpos : 0 < child.leaves.countP p := List.countP_pos_iff.mpr ⟨a, ha, hp⟩
  have hzero : (before.flatMap leaves).countP p = 0 ∧ (after.flatMap leaves).countP p = 0 := by
    omega
  refine ⟨by omega, fun other hother x hx => ?_⟩
  rw [List.countP_eq_zero, List.countP_eq_zero] at hzero
  rw [← Bool.not_eq_true]
  rcases List.mem_append.mp hother with hother | hother
  · exact hzero.1 x (List.mem_flatMap.mpr ⟨other, hother, hx⟩)
  · exact hzero.2 x (List.mem_flatMap.mpr ⟨other, hother, hx⟩)

namespace Holds

variable {t : OrderedTree α β} {b : β} {front back : List (OrderedTree α β)} {a : α}

theorem sibling_leaves (h : Holds p t b front a back) (hone : t.leaves.countP p ≤ 1) :
    ∀ other ∈ front ++ back, ∀ x ∈ other.leaves, x ∈ t.leaves ∧ p x = false := by
  induction h with
  | here b front back hp =>
    obtain ⟨-, hothers⟩ := not_of_countP_le_one hone (List.mem_singleton_self _) hp
    intro other hother x hx
    refine ⟨?_, hothers other hother x hx⟩
    rw [leaves_node, List.mem_flatMap]
    exact ⟨other, by simp only [List.mem_append, List.mem_cons] at hother ⊢; tauto, hx⟩
  | there b' before after h ih =>
    obtain ⟨hchild, -⟩ := not_of_countP_le_one hone h.mem_leaves h.isTrue
    intro other hother x hx
    obtain ⟨hmem, hfalse⟩ := ih hchild other hother x hx
    refine ⟨?_, hfalse⟩
    rw [leaves_node, List.mem_flatMap]
    exact ⟨_, by simp, hmem⟩

theorem slot_eq (h : Holds p t b front a back) (hone : t.leaves.countP p ≤ 1) :
    slot (isLeaf p) t = some (b, front ++ leaf a :: back, front.length) := by
  induction h with
  | here b front back hp =>
    obtain ⟨-, hothers⟩ := not_of_countP_le_one hone (List.mem_singleton_self _) hp
    refine slot_here (fun other hother => ?_) hp
    have hnone := hothers other (List.mem_append_left _ hother)
    exact ⟨isLeaf_eq_false hnone, slot_isLeaf_eq_none hnone⟩
  | there b' before after h ih =>
    obtain ⟨hchild, hothers⟩ := not_of_countP_le_one hone h.mem_leaves h.isTrue
    refine slot_there (fun other hother => ?_) ?_ (ih hchild)
    · have hnone := hothers other (List.mem_append_left _ hother)
      exact ⟨isLeaf_eq_false hnone, slot_isLeaf_eq_none hnone⟩
    · cases h <;> rfl

theorem filterMap_without {b' : β} {before after : List (OrderedTree α β)}
    {child : OrderedTree α β} (hbranching : Branching (node b' (before ++ child :: after)))
    (hothers : ∀ other ∈ before ++ after, ∀ x ∈ other.leaves, p x = false) :
    (before ++ child :: after).filterMap (without p) =
      before ++ ((child.without p).toList ++ after) := by
  have hkept : ∀ l : List (OrderedTree α β), l ⊆ before ++ after → l.filterMap (without p) = l := by
    intro l hl
    rw [List.filterMap_congr (g := some) fun other hother => ?_]
    · exact List.filterMap_some
    · have hmem : other ∈ before ++ child :: after := by
        have hside := hl hother
        simp only [List.mem_append, List.mem_cons] at hside ⊢
        exact hside.imp_right .inr
      exact without_eq_self p (hbranching.of_mem hmem) (hothers other (hl hother))
  rw [List.filterMap_append, hkept before (List.subset_append_left _ _), List.filterMap_cons]
  cases child.without p with
  | none => rw [hkept after (List.subset_append_right _ _)]; rfl
  | some kept => rw [hkept after (List.subset_append_right _ _)]; rfl

/-- With one sibling beside it, the leaf gives its node's place to the sibling: as the whole tree,
if the node is the root, else among the children of the node above. -/
theorem without_of_sibling (h : Holds p t b front a back) (hbranching : t.Branching)
    (hone : t.leaves.countP p ≤ 1) (hkeys : DistinctKeys key t) {sibling : OrderedTree α β}
    (hsibling : front ++ back = [sibling]) :
    (t = node b (front ++ leaf a :: back) ∧ t.without p = some sibling) ∨
    (isNode key (key b) t = false ∧ ∃ b' children j,
      slot (isNode key (key b)) t = some (b', children, j) ∧
      some (t.onChildren key (key b') (·.set j sibling)) = t.without p) := by
  induction h with
  | @here b front a back hp =>
    obtain ⟨-, hothers⟩ := not_of_countP_le_one hone (List.mem_singleton_self _) hp
    have hnone : (leaf a : OrderedTree α β).without p = none := by
      simp [without, fold, hp]
    refine .inl ⟨rfl, ?_⟩
    rw [without_node, filterMap_without hbranching hothers, hnone, Option.toList_none,
      List.nil_append, hsibling]
  | @there b' before after child b front back a h ih =>
    obtain ⟨hchildOne, hothers⟩ := not_of_countP_le_one hone h.mem_leaves h.isTrue
    obtain ⟨hchildKeys, hb', hotherKeys, hchildOther⟩ := hkeys.child
    have hmem : child ∈ before ++ child :: after := by simp
    have hb : key b ∈ child.labels.map key := List.mem_map_of_mem h.mem_labels
    have hbefore : ∀ other ∈ before,
        isNode key (key b) other = false ∧ slot (isNode key (key b)) other = none := by
      intro other hother
      have hout := (hchildOther _ hb).2 other (List.mem_append_left _ hother)
      exact ⟨isNode_eq_false hout, slot_isNode_eq_none hout⟩
    have hroot : isNode key (key b) (node b' (before ++ child :: after)) = false :=
      decide_eq_false fun heq => (hchildOther _ hb).1 heq.symm
    have htwo := hbranching.two_le
    refine .inr ⟨hroot, ?_⟩
    rcases ih (hbranching.of_mem hmem) hchildOne hchildKeys hsibling with
      ⟨hchild, hwithout⟩ | ⟨hinner, b'', children, j, hslot, hset⟩
    · -- the node is the child itself
      refine ⟨b', _, before.length, slot_here hbefore ?_, ?_⟩
      · rw [hchild]
        exact decide_eq_true rfl
      · have hkept := filterMap_without hbranching hothers
        rw [hwithout, Option.toList_some, List.singleton_append] at hkept
        rw [without_node_of_two_le p hkept (by simpa using htwo), onChildren_node, if_pos rfl,
          map_onChildren hotherKeys, onChildren_eq_self _ hb', List.set_append_right _ _ le_rfl,
          Nat.sub_self, List.set_cons_zero]
    · -- the node is below the child
      have hb'' : key b'' ∈ child.labels.map key := by
        by_contra hout
        rw [onChildren_eq_self _ hout] at hset
        have hall := leaves_of_without p hset.symm
        have ha : a ∈ child.leaves.filter fun x => !p x := hall ▸ h.mem_leaves
        rw [List.mem_filter, h.isTrue] at ha
        exact absurd ha.2 (by decide)
      refine ⟨b'', children, j, slot_there hbefore hinner hslot, ?_⟩
      have hkept := filterMap_without hbranching hothers
      rw [← hset, Option.toList_some, List.singleton_append] at hkept
      rw [without_node_of_two_le p hkept (by simpa using htwo), onChildren_node,
        if_neg fun heq => (hchildOther _ hb'').1 heq.symm, map_onChildren (hchildOther _ hb'').2]

theorem without_of_siblings (h : Holds p t b front a back) (hbranching : t.Branching)
    (hone : t.leaves.countP p ≤ 1) (hkeys : DistinctKeys key t)
    (hsiblings : 2 ≤ (front ++ back).length) :
    some (t.onChildren key (key b) (·.eraseIdx front.length)) = t.without p := by
  induction h with
  | @here b front a back hp =>
    obtain ⟨-, hothers⟩ := not_of_countP_le_one hone (List.mem_singleton_self _) hp
    obtain ⟨-, -, hotherKeys, -⟩ := hkeys.child
    have hkept := filterMap_without hbranching hothers
    have hnone : (leaf a : OrderedTree α β).without p = none := by
      simp [without, fold, hp]
    rw [hnone, Option.toList_none, List.nil_append] at hkept
    rw [without_node_of_two_le p hkept hsiblings, onChildren_node, if_pos rfl,
      map_onChildren hotherKeys, List.eraseIdx_append_of_length_le le_rfl, Nat.sub_self,
      List.eraseIdx_cons_zero]
  | @there b' before after child b front back a h ih =>
    obtain ⟨hchildOne, hothers⟩ := not_of_countP_le_one hone h.mem_leaves h.isTrue
    obtain ⟨hchildKeys, -, -, hchildOther⟩ := hkeys.child
    have hb : key b ∈ child.labels.map key := List.mem_map_of_mem h.mem_labels
    have hset := ih (hbranching.of_mem (by simp)) hchildOne hchildKeys hsiblings
    have hkept := filterMap_without hbranching hothers
    rw [← hset, Option.toList_some, List.singleton_append] at hkept
    have htwo := hbranching.two_le
    rw [without_node_of_two_le p hkept (by simpa using htwo), onChildren_node,
      if_neg fun heq => (hchildOther _ hb).1 heq.symm, map_onChildren (hchildOther _ hb).2]

end Holds

end Keys

end OrderedTree

end HerdrWebui
