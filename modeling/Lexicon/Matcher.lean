import Lexicon.Decision.Eval
import Lexicon.Options
import Lexicon.Source.Lowering
import Lexicon.Synthesis
import Lexicon.Trie.Listing

/-!
# Matchers

A matcher is a label set compiled for matching: its trie, and the decision synthesized from it.
Input is matched by the decision alone.
-/

namespace Lexicon

universe u

variable {V : Type u}

/-- A compiled label set. -/
structure Matcher (V : Type u) where
  trie : Trie V
  decision : Decision V

namespace Matcher

/-- The matcher of a table. Labels are folded already, so the fold is the table's, whatever the
options say. -/
def ofTable (table : Table V) (options : Options) : Matcher V :=
  let trie := Trie.ofTable table
  ⟨trie, trie.synthesize options.condense⟩

/-- The fold of labels and input. -/
def fold (m : Matcher V) : CaseFold := m.trie.fold

/-- What an input stands for. -/
def get? {α : Type} [Subject α] (m : Matcher V) (input : α) : Option V :=
  m.decision.eval m.fold input

/-- Whether an input stands for anything. -/
def contains {α : Type} [Subject α] (m : Matcher V) (input : α) : Bool :=
  (m.get? input).isSome

/-- The number of labels. -/
def size (m : Matcher V) : Nat := m.trie.labelCount

/-- Whether there are no labels. -/
def isEmpty (m : Matcher V) : Bool := m.trie.isEmpty

/-- The listing of the trie. -/
def listing (quote : V → String) (m : Matcher V) : String := m.trie.listing quote

/-- A private function with the matcher's fold. -/
def signature (name returnType : String) (m : Matcher V) : Source.Signature :=
  (Source.Signature.new name returnType).withFold m.fold

/-- The source text of a private function that matches as the matcher does. -/
def emit (name returnType : String) (render : V → String) (m : Matcher V) : String :=
  m.decision.emit (m.signature name returnType) render

end Matcher

/-- The matcher of a list of labels with their payloads. -/
def compile (options : Options) (source : List (String × V)) : Except BuildError (Matcher V) :=
  (Table.build options.fold source).map (Matcher.ofTable · options)

/-- The matcher of the members of an enumeration. -/
def compileVariants (options : Options) (source : List (Variant × V)) :
    Except BuildError (Matcher V) :=
  (Table.ofVariants options.fold source).map (Matcher.ofTable · options)

/-- A compiled list of labels, each standing for its position. -/
structure IndexMatcher where
  matcher : Matcher Nat

namespace IndexMatcher

/-- What `indexOf` answers for an input that is no label. -/
def notFound : Int := -1

/-- The largest position that `indexOf` answers, which is the largest signed number of 64 bits. -/
def greatest : Nat := 0x7fffffffffffffff

/-- The position of the label that an input matches. -/
def position? {α : Type} [Subject α] (m : IndexMatcher) (input : α) : Option Nat :=
  m.matcher.get? input

/-- The position of the label that an input matches, or `notFound` if there is none that is not too
large. -/
def indexOf {α : Type} [Subject α] (m : IndexMatcher) (input : α) : Int :=
  match m.position? input with
  | some position => if position ≤ greatest then position else notFound
  | none => notFound

/-- The decision of the matcher. -/
def decision (m : IndexMatcher) : Decision Nat := m.matcher.decision

/-- The number of labels. -/
def size (m : IndexMatcher) : Nat := m.matcher.size

/-- Whether there are no labels. -/
def isEmpty (m : IndexMatcher) : Bool := m.matcher.isEmpty

end IndexMatcher

/-- The matcher of a list of labels, each standing for its position. -/
def compileIndexed (options : Options) (source : List String) : Except BuildError IndexMatcher :=
  (Table.indexed options.fold source).map fun table => ⟨Matcher.ofTable table options⟩

end Lexicon
