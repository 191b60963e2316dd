import Lexicon.Table
import Lexicon.Trie.Node

/-!
# Tries

The trie of a label table holds every prefix of every label once. Its labels are folded already;
`lookup` folds the characters of its input and walks from the root, one child per character.
-/

namespace Lexicon

universe u

/-- The prefixes of a set of labels. -/
structure Trie (V : Type u) where
  /-- The empty prefix. -/
  root : Node V
  /-- The fold of the labels. -/
  fold : CaseFold
  /-- The number of nodes, and so the number of the next one. -/
  size : Nat
  /-- The number of labels. -/
  labelCount : Nat

namespace Trie

variable {V : Type u}

/-- The character that listings show for the root, which no character leads to. -/
def rootChar : Char := ' '

/-- The trie of no labels. -/
def empty (fold : CaseFold) : Trie V := ⟨.bare 0 rootChar, fold, 1, 0⟩

/-- Whether there are no labels. -/
def isEmpty (t : Trie V) : Bool := t.labelCount == 0

/-- The trie with one more label, which must be folded and new. -/
def insert (t : Trie V) (label : List Char) (payload : V) : Trie V :=
  let size := t.size + (label.length - t.root.depth label)
  { t with
    root := t.root.insert label payload t.size
    size
    labelCount := t.labelCount + 1 }

/-- The trie of the entries of a table. -/
def ofTable (table : Table V) : Trie V :=
  table.entries.foldl (fun t entry => t.insert entry.label.toList entry.payload)
    (empty table.fold)

/-- The node that a folded prefix leads to. -/
def node? (t : Trie V) (path : List Char) : Option (Node V) :=
  t.root.follow? path

/-- What the folded input stands for, by walking the trie. -/
def lookup (t : Trie V) (input : List Char) : Option V :=
  (t.node? (input.map t.fold.apply)).bind Node.payload

end Trie

end Lexicon
