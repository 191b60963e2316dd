import Lexicon.LengthRange
import Lexicon.Trie.Node

/-!
# Lengths of the labels below a node

For a node reached after `index` characters, `lengths` started at the exact range of `index` is the
range from the shortest to the longest label that goes through the node. A label that ends at a
node with children is the shortest one through it, however long the others are, and fixes the lower
bound there; its siblings keep theirs.
-/

namespace Lexicon.Node

universe u

variable {V : Type u}

mutual

/-- The lengths of the labels through a node, counted on from the range `incoming`. -/
def lengths : Node V → LengthRange → LengthRange
  | ⟨_, _, _, []⟩, incoming => incoming
  | ⟨_, _, payload, m :: rest⟩, incoming =>
    let below := lengthsAll (m.lengths incoming.deeper) rest incoming.deeper
    if payload.isSome then below.withMin incoming.min else below

/-- The range `known` extended to the labels through further siblings. -/
def lengthsAll (known : LengthRange) : List (Node V) → LengthRange → LengthRange
  | [], _ => known
  | m :: rest, incoming => lengthsAll (known.union (m.lengths incoming)) rest incoming

end

/-! ### The lower bound fixed on the way down -/

mutual

/-- The same analysis with the lower bound carried to the children: `pin` is the bound that was
fixed by the nearest label above the node. A label at the node itself fixes its own, and the union
over the children then gets the bound in force. -/
def pinnedLengths (pin : Option Nat) : Node V → LengthRange → LengthRange
  | ⟨_, _, _, []⟩, incoming => incoming
  | ⟨_, _, payload, m :: rest⟩, incoming =>
    let pin := if payload.isSome then some incoming.min else pin
    let below := pinnedLengthsAll pin (m.pinnedLengths pin incoming.deeper) rest incoming.deeper
    match pin with
    | some length => below.withMin length
    | none => below

/-- The range `known` extended to the labels through further siblings, under the same bound. -/
def pinnedLengthsAll (pin : Option Nat) (known : LengthRange) :
    List (Node V) → LengthRange → LengthRange
  | [], _ => known
  | m :: rest, incoming =>
    pinnedLengthsAll pin (known.union (m.pinnedLengths pin incoming)) rest incoming

end

/-! ### Laws -/

theorem lengthsAll_eq_foldl (known : LengthRange) (ns : List (Node V)) (incoming : LengthRange) :
    lengthsAll known ns incoming = ns.foldl (fun r m => r.union (m.lengths incoming)) known := by
  induction ns generalizing known with
  | nil => rfl
  | cons m rest ih => rw [lengthsAll, ih, List.foldl_cons]

/-- Nothing is counted below a leaf. -/
theorem lengths_of_isLeaf {n : Node V} (h : n.isLeaf) (incoming : LengthRange) :
    n.lengths incoming = incoming := by
  obtain ⟨id, c, payload, children⟩ := n
  obtain rfl : children = [] := by simpa [isLeaf] using h
  rfl

end Lexicon.Node
