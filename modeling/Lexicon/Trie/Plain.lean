import Lexicon.Decision.Basic
import Lexicon.Trie.Basic

/-!
# The plain decision of a trie

The decision read off a trie node by node, without guards and runs: a branch where characters go on,
with the node's own payload for an input that ends there, and the payload itself at a leaf.
-/

namespace Lexicon

universe u

variable {V : Type u}

namespace Node

/-- The plain decision of a node that is reached after `depth` characters. -/
def plainDecision (n : Node V) (depth : Nat) : Decision V :=
  if n.isLeaf then .ofPayload n.payload
  else .dispatch depth n.payload
    (n.children.map fun m => (m.char, m.plainDecision (depth + 1)))
termination_by n.count
decreasing_by exact count_lt_of_mem ‹m ∈ n.children›

theorem plainDecision_of_isLeaf {n : Node V} (h : n.isLeaf) (depth : Nat) :
    n.plainDecision depth = .ofPayload n.payload := by
  rw [plainDecision, if_pos h]

theorem plainDecision_of_not_isLeaf {n : Node V} (h : ¬ n.isLeaf) (depth : Nat) :
    n.plainDecision depth = .dispatch depth n.payload
      (n.children.map fun m => (m.char, m.plainDecision (depth + 1))) := by
  rw [plainDecision, if_neg h]

end Node

/-- The plain decision of a trie. -/
def Trie.plainDecision (t : Trie V) : Decision V := t.root.plainDecision 0

end Lexicon
