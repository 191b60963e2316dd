import Lexicon.CharTest
import Lexicon.Trie.Node

/-!
# Runs

A node where no label ends and only one character goes on leaves an input no choice. Where two such
nodes follow each other, the characters below are tested as one run. The run ends at a leaf, at the
first node where a label ends, or before the first node that branches, so every label through the
node where the run starts goes through the node where it stops.
-/

namespace Lexicon

universe u

variable {V : Type u}

/-- Characters that follow each other without a choice, and the node that the last leads to. -/
structure Run (V : Type u) where
  chars : List Char
  stop : Node V

namespace Run

/-- The number of characters. -/
def length (run : Run V) : Nat := run.chars.length

/-- Whether the run is the whole rest of a label. -/
def endsAtLeaf (run : Run V) : Bool := run.stop.isLeaf

/-- The tests of a run whose first character is read at offset `index`. -/
def tests (run : Run V) (index : Nat) : List CharTest :=
  CharTest.consecutive index run.chars

@[simp] theorem length_tests (run : Run V) (index : Nat) :
    (run.tests index).length = run.length := by
  simp [tests, length]

end Run

namespace Node

/-- Whether no label ends at the node and exactly one character goes on. -/
def isLink (n : Node V) : Bool := !n.isTerminal && n.children.length == 1

/-- Whether the node and its only child leave no choice. -/
def canCondense (n : Node V) : Bool := n.isLink && n.children.all isLink

/-- The run that begins with the character of the node itself. It goes on as long as no label ends
and the only child does not branch. -/
def spine : Node V → Run V
  | ⟨id, c, payload, children⟩ =>
    match children with
    | [m] =>
      if payload.isSome || 1 < m.children.length then ⟨[c], ⟨id, c, payload, [m]⟩⟩
      else
        let rest := m.spine
        ⟨c :: rest.chars, rest.stop⟩
    | _ => ⟨[c], ⟨id, c, payload, children⟩⟩

/-- The run below the node, where there is one. -/
def run? (n : Node V) : Option (Run V) :=
  if n.canCondense then n.children.head?.map spine else none

theorem isSome_run? (n : Node V) : n.run?.isSome = n.canCondense := by
  unfold run?
  split
  · rename_i h
    have hlen : n.children.length = 1 := by
      simp only [canCondense, isLink, Bool.and_eq_true, beq_iff_eq] at h
      exact h.1.2
    cases hc : n.children with
    | nil => simp [hc] at hlen
    | cons m rest => simp [h]
  · rename_i h
    simpa using h

theorem count_stop_spine_le (n : Node V) : n.spine.stop.count ≤ n.count := by
  induction n using Node.induction with
  | step n ih =>
    obtain ⟨id, c, payload, children⟩ := n
    unfold spine
    split
    · rename_i m
      split
      · exact Nat.le_refl _
      · have hm : m ∈ (⟨id, c, payload, [m]⟩ : Node V).children := by simp
        exact Nat.le_trans (ih m hm) (Nat.le_of_lt (count_lt_of_mem hm))
    · exact Nat.le_refl _

/-- A run stops strictly below the node it starts from. -/
theorem count_stop_lt {n : Node V} {run : Run V} (h : n.run? = some run) :
    run.stop.count < n.count := by
  unfold run? at h
  split at h
  · obtain ⟨m, hm, rfl⟩ := Option.map_eq_some_iff.1 h
    exact Nat.lt_of_le_of_lt (count_stop_spine_le m) (count_lt_of_mem (List.mem_of_mem_head? hm))
  · simp at h

end Node

end Lexicon
