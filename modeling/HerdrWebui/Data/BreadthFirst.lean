import Mathlib.Tactic

/-!
A walk over a tree with a queue of nodes, where a node lists items and an item may be a node
again. Visits go on until one of them ends the walk. The items are visited level by level.

Nothing here is about a particular program.
-/

namespace HerdrWebui

section BreadthFirst

variable {δ ε σ ρ : Type*} (listing : δ → List ε) (nodeOf : ε → Option δ)

/-- A round lists the first node of the queue and visits what it lists. -/
def walkQueue (visit : σ → ε → Except ρ σ) :
    (rounds : Nat) → (queue : List δ) → σ → Except ρ σ
  | 0, _, s => .ok s
  | _ + 1, [], s => .ok s
  | rounds + 1, node :: queue, s =>
    match (listing node).foldlM visit s with
    | .error result => .error result
    | .ok s => walkQueue visit rounds (queue ++ (listing node).filterMap nodeOf) s

def listed : (rounds : Nat) → (queue : List δ) → List ε
  | 0, _ => []
  | _ + 1, [] => []
  | rounds + 1, node :: queue =>
    listing node ++ listed rounds (queue ++ (listing node).filterMap nodeOf)

def levels : Nat → List δ → List ε
  | 0, _ => []
  | depth + 1, nodes =>
    nodes.flatMap listing ++ levels depth ((nodes.flatMap listing).filterMap nodeOf)

def nodesBelow : Nat → List δ → List δ
  | 0, nodes => nodes
  | depth + 1, nodes => nodesBelow depth ((nodes.flatMap listing).filterMap nodeOf)

theorem walkQueue_eq (visit : σ → ε → Except ρ σ) (rounds : Nat) (queue : List δ) (s : σ) :
    walkQueue listing nodeOf visit rounds queue s =
      (listed listing nodeOf rounds queue).foldlM visit s := by
  induction rounds generalizing queue s with
  | zero => rfl
  | succ rounds ih =>
    cases queue with
    | nil => rfl
    | cons node queue =>
      rw [walkQueue, listed, List.foldlM_append]
      cases h : (listing node).foldlM visit s with
      | error result => rfl
      | ok s' => exact ih _ s'

theorem listed_nil (rounds : Nat) : listed listing nodeOf rounds [] = [] := by
  cases rounds <;> rfl

theorem listed_append (queue next : List δ) (rounds : Nat) :
    listed listing nodeOf (queue.length + rounds) (queue ++ next) =
      queue.flatMap listing ++
        listed listing nodeOf rounds (next ++ (queue.flatMap listing).filterMap nodeOf) := by
  induction queue generalizing next with
  | nil => simp
  | cons node queue ih =>
    rw [List.length_cons, Nat.add_right_comm, List.cons_append, listed, List.append_assoc, ih]
    simp only [List.flatMap_cons, List.filterMap_append, List.append_assoc]

theorem listed_levels (depth : Nat) (nodes : List δ) (rounds : Nat) :
    ∃ all, rounds ≤ all ∧ listed listing nodeOf all nodes =
      levels listing nodeOf depth nodes ++
        listed listing nodeOf rounds (nodesBelow listing nodeOf depth nodes) := by
  induction depth generalizing nodes with
  | zero => exact ⟨rounds, le_refl rounds, rfl⟩
  | succ depth ih =>
    obtain ⟨all, hle, hall⟩ := ih ((nodes.flatMap listing).filterMap nodeOf)
    refine ⟨nodes.length + all, by omega, ?_⟩
    have hround := listed_append listing nodeOf nodes [] all
    rw [List.append_nil, List.nil_append, hall] at hround
    rw [hround, levels, nodesBelow, List.append_assoc]

theorem nodesBelow_nil (depth : Nat) : nodesBelow listing nodeOf depth [] = [] := by
  induction depth with
  | zero => rfl
  | succ depth ih => exact ih

theorem le_length_levels (depth : Nat) (nodes : List δ) :
    depth ≤ (levels listing nodeOf depth nodes).length ∨
      nodesBelow listing nodeOf depth nodes = [] := by
  induction depth generalizing nodes with
  | zero => exact .inl (Nat.zero_le _)
  | succ depth ih =>
    rw [levels, nodesBelow, List.length_append]
    by_cases hitems : nodes.flatMap listing = []
    · right
      rw [hitems]
      exact nodesBelow_nil listing nodeOf depth
    · have hpos := List.length_pos_of_ne_nil hitems
      apply (ih ((nodes.flatMap listing).filterMap nodeOf)).imp _ id
      intro hle
      omega

theorem listed_mono {rounds more : Nat} (h : rounds ≤ more) (queue : List δ) :
    listed listing nodeOf rounds queue <+: listed listing nodeOf more queue := by
  induction rounds generalizing more queue with
  | zero => exact List.nil_prefix
  | succ rounds ih =>
    obtain ⟨more, rfl⟩ := Nat.exists_eq_add_of_le' (Nat.one_le_of_lt h)
    cases queue with
    | nil => exact List.prefix_refl _
    | cons node queue =>
      rw [listed, listed]
      exact (List.prefix_append_right_inj _).mpr (ih (by omega) _)

/-- A round that finds a node in the queue has the item that the node was, if it was not there
from the start. -/
theorem lt_length_listed (rounds : Nat) (queue : List δ) :
    rounds < queue.length + (listed listing nodeOf rounds queue).length ∨
      ∀ more, rounds ≤ more →
        listed listing nodeOf more queue = listed listing nodeOf rounds queue := by
  induction rounds generalizing queue with
  | zero =>
    cases queue with
    | nil =>
      right
      intro more _
      rw [listed_nil, listed_nil]
    | cons node queue =>
      left
      rw [List.length_cons]
      omega
  | succ rounds ih =>
    cases queue with
    | nil =>
      right
      intro more _
      rw [listed_nil, listed_nil]
    | cons node queue =>
      rcases ih (queue ++ (listing node).filterMap nodeOf) with hlt | hsame
      · left
        have hnodes := List.length_filterMap_le nodeOf (listing node)
        rw [listed, List.length_cons, List.length_append]
        rw [List.length_append] at hlt
        omega
      · right
        intro more hmore
        obtain ⟨more, rfl⟩ := Nat.exists_eq_add_of_le' (Nat.one_le_of_lt hmore)
        rw [listed, listed, hsame more (by omega)]

theorem take_listed (count : Nat) (queue : List δ) :
    (listed listing nodeOf (count + queue.length) queue).take count =
      (levels listing nodeOf count queue).take count := by
  obtain ⟨all, hle, hall⟩ := listed_levels listing nodeOf count queue (count + queue.length)
  have hsame : (listed listing nodeOf (count + queue.length) queue).take count =
      (listed listing nodeOf all queue).take count := by
    rcases lt_length_listed listing nodeOf (count + queue.length) queue with hlt | hstable
    · obtain ⟨rest, hrest⟩ := listed_mono listing nodeOf hle queue
      rw [← hrest, List.take_append_of_le_length (by omega)]
    · rw [hstable all hle]
  rw [hsame, hall]
  rcases le_length_levels listing nodeOf count queue with hlevels | hbelow
  · exact List.take_append_of_le_length hlevels
  · rw [hbelow, listed_nil, List.append_nil]

end BreadthFirst

section Counted

variable {ε σ ρ : Type*} (visit : σ → ε → Except ρ σ) (count : σ → Nat) (limit : Nat)

/-- A fold that ends by itself at its last item at the latest has no use for more items. -/
theorem foldlM_take (hstop : ∀ s e, limit ≤ count s + 1 → ∃ result, visit s e = .error result)
    (hcount : ∀ s e s', visit s e = .ok s' → count s' = count s + 1) (items : List ε) (s : σ)
    (hlt : count s < limit) :
    (items.take (limit - count s)).foldlM visit s = items.foldlM visit s := by
  induction items generalizing s with
  | nil => rw [List.take_nil]
  | cons e items ih =>
    obtain ⟨left, hleft⟩ := Nat.exists_eq_add_of_lt hlt
    have htake : limit - count s = left + 1 := by omega
    rw [htake, List.take_succ_cons, List.foldlM_cons, List.foldlM_cons]
    by_cases hlast : limit ≤ count s + 1
    · obtain ⟨result, hresult⟩ := hstop s e hlast
      rw [hresult]
      rfl
    · cases hvisit : visit s e with
      | error result => rfl
      | ok s' =>
        have hcount' := hcount s e s' hvisit
        have hrest := ih s' (by omega)
        have hleft' : limit - count s' = left := by omega
        rw [hleft'] at hrest
        exact hrest

theorem walkQueue_levels {δ : Type*} (listing : δ → List ε) (nodeOf : ε → Option δ)
    (hstop : ∀ s e, limit ≤ count s + 1 → ∃ result, visit s e = .error result)
    (hcount : ∀ s e s', visit s e = .ok s' → count s' = count s + 1) (queue : List δ) (s : σ)
    (hlt : 0 < limit) (hs : count s = 0) :
    walkQueue listing nodeOf visit (limit + queue.length) queue s =
      ((levels listing nodeOf limit queue).take limit).foldlM visit s := by
  have hfold := foldlM_take visit count limit hstop hcount
    (listed listing nodeOf (limit + queue.length) queue) s (by omega)
  rw [hs, Nat.sub_zero, take_listed] at hfold
  rw [walkQueue_eq, hfold]

end Counted

end HerdrWebui
