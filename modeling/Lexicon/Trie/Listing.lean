import Lexicon.Text.Layout
import Lexicon.Text.Quoted
import Lexicon.Trie.Basic

/-!
# Listing of a trie

One line per node, children below their parent and two spaces deeper: `T` for a node where a label
ends, the quoted character, and the payload of such a node.

Which characters are written as themselves is a parameter of the lines; the listing fixes it.
-/

namespace Lexicon

open Text (Line)

universe u

variable {V : Type u}

namespace Node

/-- The line of a node, with `quote` as the written form of payloads and the character written as
itself if it stands `alone`. -/
def lineText (alone : Char → Bool) (quote : V → String) (c : Char) : Option V → String
  | none => Text.quoteCharBy alone c
  | some payload => "T" ++ Text.quoteCharBy alone c ++ " " ++ quote payload

section

variable (alone : Char → Bool) (quote : V → String)

mutual

/-- The lines of a node and of all nodes below it. -/
def lines (depth : Nat) : Node V → List Line
  | ⟨_, c, payload, children⟩ =>
    ⟨depth, lineText alone quote c payload⟩ :: linesAll (depth + 1) children

/-- The lines of sibling nodes. -/
def linesAll (depth : Nat) : List (Node V) → List Line
  | [] => []
  | n :: rest => n.lines depth ++ linesAll depth rest

end

theorem lines_eq (depth : Nat) (n : Node V) :
    n.lines alone quote depth =
      ⟨depth, lineText alone quote n.char n.payload⟩ ::
        linesAll alone quote (depth + 1) n.children := by
  cases n; rfl

theorem linesAll_eq_flatMap (depth : Nat) (ns : List (Node V)) :
    linesAll alone quote depth ns = ns.flatMap (lines alone quote depth) := by
  induction ns with
  | nil => rfl
  | cons n rest ih => rw [linesAll, ih, List.flatMap_cons]

/-- A node has as many lines as there are nodes from it down. -/
theorem length_lines (n : Node V) (depth : Nat) : (n.lines alone quote depth).length = n.count := by
  induction n using Node.induction generalizing depth with
  | step n ih =>
    have hall : ∀ ns : List (Node V), (∀ m ∈ ns, m ∈ n.children) →
        (linesAll alone quote (depth + 1) ns).length = countAll ns := by
      intro ns hns
      induction ns with
      | nil => rfl
      | cons m rest ihr =>
        rw [linesAll, List.length_append, countAll, ih m (hns m (by simp)),
          ihr fun k hk => hns k (by simp [hk])]
    rw [lines_eq, List.length_cons, hall _ fun _ h => h, count_eq]

end

end Node

/-- The listing of a trie from its root on, with `quote` as the written form of payloads and the
characters that are `alone` written as themselves. -/
def Trie.listingBy (alone : Char → Bool) (quote : V → String) (t : Trie V) : String :=
  Line.renderAll 2 (t.root.lines alone quote 0)

/-- The listing of a trie. -/
def Trie.listing (quote : V → String) (t : Trie V) : String :=
  t.listingBy Text.Quoted.standsAlone quote

end Lexicon
