/-!
# Trie nodes

A node stands for a prefix shared by labels. It holds the character that leads to it, the payload
of the label that ends there, if any, and its children in the order of their characters. Nodes are
numbered in the order in which they come into being.

`insert` makes room for one label: it keeps the nodes that are there and numbers the new ones on
from a given number, along the label. `depth` counts the characters of a label that lead to nodes
already there, so that `insert` makes as many nodes as the label has characters beyond that depth.
-/

namespace Lexicon

universe u

/-- A prefix of labels, with everything that continues it. -/
structure Node (V : Type u) where
  /-- The number of the node, in order of creation. -/
  id : Nat
  /-- The last character of the prefix. -/
  char : Char
  /-- What the prefix stands for, if it is a label. -/
  payload : Option V
  /-- The prefixes longer by one character, in the order of that character. -/
  children : List (Node V)

namespace Node

variable {V : Type u}

/-- A node without payload and children. -/
def bare (id : Nat) (char : Char) : Node V := ⟨id, char, none, []⟩

/-- Whether a label ends at the node. -/
def isTerminal (n : Node V) : Bool := n.payload.isSome

/-- Whether no label goes on below the node. -/
def isLeaf (n : Node V) : Bool := n.children.isEmpty

/-- The child that a character leads to. -/
def child? (n : Node V) (c : Char) : Option (Node V) :=
  n.children.find? (·.char = c)

/-- The node that a sequence of characters leads to. -/
def follow? (n : Node V) : List Char → Option (Node V)
  | [] => some n
  | c :: rest => (n.child? c).bind fun m => follow? m rest

@[simp] theorem follow?_nil (n : Node V) : n.follow? [] = some n := rfl

theorem follow?_cons (n : Node V) (c : Char) (rest : List Char) :
    n.follow? (c :: rest) = (n.child? c).bind fun m => m.follow? rest := rfl

/-- Two sequences, one after the other, lead where the second leads from the end of the first. -/
theorem follow?_append (n : Node V) (path rest : List Char) :
    n.follow? (path ++ rest) = (n.follow? path).bind fun m => m.follow? rest := by
  induction path generalizing n with
  | nil => rfl
  | cons c path ih =>
    simp only [List.cons_append, follow?_cons, Option.bind_assoc]
    exact congrArg _ (funext ih)

/-- The payload of the label that a sequence of characters completes. -/
def lookup? (n : Node V) (path : List Char) : Option V :=
  (n.follow? path).bind payload

@[simp] theorem lookup?_nil (n : Node V) : n.lookup? [] = n.payload := rfl

theorem lookup?_cons (n : Node V) (c : Char) (rest : List Char) :
    n.lookup? (c :: rest) = (n.child? c).bind fun m => m.lookup? rest := by
  rw [lookup?, follow?_cons, Option.bind_assoc]
  rfl

/-! ### Counting nodes -/

mutual

/-- The number of nodes from this one down. -/
def count : Node V → Nat
  | ⟨_, _, _, children⟩ => countAll children + 1

/-- The number of nodes from these down. -/
def countAll : List (Node V) → Nat
  | [] => 0
  | n :: rest => n.count + countAll rest

end

theorem count_eq (n : Node V) : n.count = countAll n.children + 1 := by
  cases n; rfl

theorem count_le_countAll {m : Node V} {ns : List (Node V)} (h : m ∈ ns) :
    m.count ≤ countAll ns := by
  induction ns with
  | nil => simp at h
  | cons n rest ih =>
    rw [countAll]
    rcases List.mem_cons.1 h with rfl | h
    · omega
    · have := ih h
      omega

/-- A child has fewer nodes from it down than its parent. -/
theorem count_lt_of_mem {m n : Node V} (h : m ∈ n.children) : m.count < n.count := by
  have := count_le_countAll h
  rw [count_eq n]
  omega

/-- What holds of a node whenever it holds of its children holds of every node. -/
theorem induction {motive : Node V → Prop}
    (step : ∀ n, (∀ m ∈ n.children, motive m) → motive n) (n : Node V) : motive n :=
  step n fun m _ => induction step m
termination_by n.count
decreasing_by exact count_lt_of_mem ‹_›

/-! ### Insertion -/

/-- The children with the one for `c` replaced by `f` of it, or put in its place in order if there
is none. -/
def alterChild (c : Char) (f : Option (Node V) → Node V) : List (Node V) → List (Node V)
  | [] => [f none]
  | m :: rest =>
    if m.char = c then f (some m) :: rest
    else if c < m.char then f none :: m :: rest
    else m :: alterChild c f rest

/-- The node with a label below it. New nodes are numbered from `next` on. -/
def insert (n : Node V) (label : List Char) (payload : V) (next : Nat) : Node V :=
  match label with
  | [] => { n with payload := some payload }
  | c :: rest =>
    { n with
      children := n.children |> alterChild c fun
        | some m => m.insert rest payload next
        | none => (bare next c).insert rest payload (next + 1) }

@[simp] theorem char_insert (n : Node V) (label : List Char) (payload : V) (next : Nat) :
    (n.insert label payload next).char = n.char := by
  cases label <;> rfl

/-- The number of leading characters of a label that lead to nodes. -/
def depth (n : Node V) : List Char → Nat
  | [] => 0
  | c :: rest =>
    match n.child? c with
    | some m => m.depth rest + 1
    | none => 0

end Node

end Lexicon
