import Lexicon.Trie.Node
import Lexicon.Trie.Run

/-!
# Nodes without their numbers

The number of a node tells when it came into being, and so depends on the order in which labels were
inserted. `unnumbered` forgets the numbers of a node and of all nodes below it. What is left is what
a walk along characters can see.
-/

namespace Lexicon

universe u

variable {V : Type u}

namespace Node

/-- The node with zero for its number and for the numbers of all nodes below it. -/
def unnumbered (n : Node V) : Node V :=
  { n with
    id := 0
    children := n.children.map fun m => m.unnumbered }
termination_by n.count
decreasing_by exact count_lt_of_mem ‹m ∈ n.children›

theorem unnumbered_mk (id : Nat) (c : Char) (payload : Option V) (children : List (Node V)) :
    (⟨id, c, payload, children⟩ : Node V).unnumbered =
      ⟨0, c, payload, children.map unnumbered⟩ := by
  rw [unnumbered]

@[simp] theorem char_unnumbered (n : Node V) : n.unnumbered.char = n.char := by
  rw [unnumbered]

@[simp] theorem payload_unnumbered (n : Node V) : n.unnumbered.payload = n.payload := by
  rw [unnumbered]

@[simp] theorem children_unnumbered (n : Node V) :
    n.unnumbered.children = n.children.map unnumbered := by
  rw [unnumbered]

@[simp] theorem isTerminal_unnumbered (n : Node V) : n.unnumbered.isTerminal = n.isTerminal := by
  rw [isTerminal, payload_unnumbered, isTerminal]

@[simp] theorem isLeaf_unnumbered (n : Node V) : n.unnumbered.isLeaf = n.isLeaf := by
  rw [isLeaf, children_unnumbered, List.isEmpty_map, isLeaf]

@[simp] theorem isLink_unnumbered (n : Node V) : n.unnumbered.isLink = n.isLink := by
  rw [isLink, isTerminal_unnumbered, children_unnumbered, List.length_map, isLink]

theorem child?_unnumbered (n : Node V) (c : Char) :
    n.unnumbered.child? c = (n.child? c).map unnumbered := by
  rw [child?, children_unnumbered, List.find?_map, child?]
  simp only [Function.comp_def, char_unnumbered]

/-- The labels of a node do not depend on numbers. -/
@[simp] theorem lookup?_unnumbered (n : Node V) (path : List Char) :
    n.unnumbered.lookup? path = n.lookup? path := by
  induction path generalizing n with
  | nil => exact payload_unnumbered n
  | cons c rest ih =>
    rw [lookup?_cons, lookup?_cons, child?_unnumbered, Option.bind_map]
    exact congrArg _ (funext ih)

end Node

/-- The run to the same node without numbers. -/
def Run.unnumbered (run : Run V) : Run V := { run with stop := run.stop.unnumbered }

namespace Run

@[simp] theorem stop_unnumbered (run : Run V) : run.unnumbered.stop = run.stop.unnumbered := rfl

@[simp] theorem length_unnumbered (run : Run V) : run.unnumbered.length = run.length := rfl

@[simp] theorem tests_unnumbered (run : Run V) (index : Nat) :
    run.unnumbered.tests index = run.tests index := rfl

@[simp] theorem endsAtLeaf_unnumbered (run : Run V) :
    run.unnumbered.endsAtLeaf = run.endsAtLeaf :=
  Node.isLeaf_unnumbered run.stop

end Run

namespace Node

theorem canCondense_unnumbered (n : Node V) : n.unnumbered.canCondense = n.canCondense := by
  rw [canCondense, isLink_unnumbered, children_unnumbered, List.all_map, canCondense]
  simp only [Function.comp_def, isLink_unnumbered]

theorem spine_unnumbered (n : Node V) : n.unnumbered.spine = n.spine.unnumbered := by
  induction n using Node.induction with
  | step n ih =>
    obtain ⟨id, c, payload, children⟩ := n
    rw [unnumbered_mk]
    match children with
    | [] => simp [spine, Run.unnumbered, unnumbered_mk]
    | [m] =>
      rw [List.map_singleton, spine, spine, children_unnumbered, List.length_map, ih m (by simp)]
      split <;> simp [Run.unnumbered, unnumbered_mk]
    | m :: k :: rest => simp [spine, Run.unnumbered, unnumbered_mk]

theorem run?_unnumbered (n : Node V) : n.unnumbered.run? = n.run?.map Run.unnumbered := by
  rw [run?, canCondense_unnumbered, children_unnumbered, List.head?_map, run?]
  split
  · rw [Option.map_map, Option.map_map]
    exact congrArg (Option.map · _) (funext spine_unnumbered)
  · rfl

end Node

end Lexicon
