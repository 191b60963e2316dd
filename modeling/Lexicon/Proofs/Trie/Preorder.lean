import Lexicon.Proofs.Trie.Order
import Lexicon.Trie.Preorder
import Mathlib.Data.List.Nodup

/-!
# The list of the nodes of a trie

The list of the nodes below a valid node has an entry for every path that leads to a node, and one
only (`mem_preorder_iff`, `nodup_paths_preorder`).
-/

namespace Lexicon.Node

universe u

variable {V : Type u} {n m : Node V}

/-- The entries of the list are the nodes with the paths that lead to them. -/
theorem mem_preorder_iff (h : n.Valid) {path : List Char} :
    (path, m) ∈ n.preorder ↔ n.follow? path = some m := by
  induction path generalizing n with
  | nil => rw [preorder]; simp [eq_comm]
  | cons c rest ih =>
    rw [preorder, follow?_cons, List.mem_cons, Option.bind_eq_some_iff]
    simp only [List.mem_flatMap, List.mem_map, Prod.mk.injEq, List.cons.injEq, reduceCtorEq,
      false_and, false_or]
    constructor
    · rintro ⟨k, hk, entry, hentry, ⟨rfl, rfl⟩, rfl⟩
      exact ⟨k, child?_char h.ascending hk, (ih (h.child hk)).1 hentry⟩
    · rintro ⟨k, hk, hrest⟩
      obtain ⟨hmem, rfl⟩ := (child?_eq_some_iff h.ascending).1 hk
      exact ⟨k, hmem, _, (ih (h.child hmem)).2 hrest, ⟨rfl, rfl⟩, rfl⟩

/-- No path occurs twice. -/
theorem nodup_paths_preorder (h : n.Valid) : (n.preorder.map Prod.fst).Nodup := by
  induction n using Node.induction with
  | step n ih =>
    have hbelow : ∀ m : Node V,
        (m.preorder.map fun entry => (m.char :: entry.1, entry.2)).map Prod.fst =
          (m.preorder.map Prod.fst).map (m.char :: ·) := fun m => by
      rw [List.map_map, List.map_map]
      rfl
    rw [preorder, List.map_cons, List.map_flatMap, List.nodup_cons, List.nodup_flatMap]
    simp only [hbelow]
    refine ⟨by simp, fun m hm => (ih m hm (h.child hm)).map List.cons_injective, ?_⟩
    -- paths through different children differ in their first character
    refine (List.pairwise_map.1 h.ascending).imp fun {m k} hlt path hm hk => ?_
    obtain ⟨_, -, rfl⟩ := List.mem_map.1 hm
    obtain ⟨_, -, heq⟩ := List.mem_map.1 hk
    exact Char.ne_of_lt hlt (List.cons.inj heq).1.symm

end Lexicon.Node
