import Lexicon.Trie.Node
import Mathlib.Algebra.BigOperators.Group.List.Basic
import Mathlib.Algebra.GroupWithZero.Nat

/-!
# The nodes of a trie in order

A node laid out as the list of all nodes from it down, each before those below it, and each with the
characters that lead to it. What adds up over the nodes adds up from the first and what is below its
children (`sum_preorder`).
-/

namespace Lexicon.Node

universe u

variable {V : Type u}

/-- The nodes from this one down, each with its path and before the nodes below it. -/
def preorder (n : Node V) : List (List Char × Node V) :=
  ([], n) :: n.children.flatMap fun m => m.preorder.map fun entry => (m.char :: entry.1, entry.2)
termination_by n.count
decreasing_by exact count_lt_of_mem ‹m ∈ n.children›

theorem sum_preorder (f : Node V → Nat) (n : Node V) :
    (n.preorder.map fun entry => f entry.2).sum =
      f n + (n.children.map fun m => (m.preorder.map fun entry => f entry.2).sum).sum := by
  rw [preorder, List.map_cons, List.sum_cons, List.map_flatMap, List.flatMap, List.sum_flatten,
    List.map_map]
  congr 2
  refine List.map_congr_left fun m _ => ?_
  rw [Function.comp_apply, List.map_map]
  rfl

theorem countAll_eq_sum (ns : List (Node V)) : countAll ns = (ns.map count).sum := by
  induction ns with
  | nil => rfl
  | cons n rest ih => rw [countAll, ih, List.map_cons, List.sum_cons]

/-- Every node but the first is a child of one node. -/
theorem sum_length_children_preorder (n : Node V) :
    (n.preorder.map fun entry => entry.2.children.length).sum + 1 = n.count := by
  induction n using Node.induction with
  | step n ih =>
    have hchildren : (n.children.map count).sum =
        (n.children.map fun m => (m.preorder.map fun entry => entry.2.children.length).sum).sum +
          n.children.length := by
      rw [← List.map_congr_left ih, List.sum_map_add, List.map_const', List.sum_replicate]
      simp
    rw [sum_preorder fun m => m.children.length, count_eq, countAll_eq_sum, hchildren]
    omega

end Lexicon.Node
