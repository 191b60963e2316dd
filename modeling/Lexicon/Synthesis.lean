import Lexicon.Decision.Basic
import Lexicon.Trie.Basic
import Lexicon.Trie.Lengths
import Lexicon.Trie.Run

/-!
# Synthesis

The decision of a trie, node by node from the root. A node is reached after `index` characters with
lengths `previous` still possible, and becomes

* the payload at a leaf,
* a run of tests where the trie leaves no choice, if runs are asked for, followed by the payload at
  the leaf where it ends, or by the branch at the node where it stops,
* a branch on the character at `index` otherwise. The cases below it are reached by longer inputs
  only.

In front goes the length check that narrows `previous` to the lengths that can still match, if they
differ. A run must be readable to its end, so it raises the lower bound past its last character.
-/

namespace Lexicon

open LengthCheck (narrowing)

universe u

variable {V : Type u}

namespace Node

/-- The run below the node, if runs are asked for and there is one. -/
def firstRun? (condense : Bool) (n : Node V) : Option (Run V) :=
  if condense then n.run? else none

theorem count_stop_firstRun?_lt {condense : Bool} {n : Node V} {run : Run V}
    (h : n.firstRun? condense = some run) : run.stop.count < n.count := by
  cases condense with
  | false => simp [firstRun?] at h
  | true => exact count_stop_lt h

mutual

/-- The decision of a node, which may begin with a run. -/
def decision (condense : Bool) (n : Node V) (index : Nat) (previous : LengthRange) :
    Decision V :=
  match _h : n.firstRun? condense with
  | some run =>
    let next := index + run.length
    if run.endsAtLeaf then
      .guarded (narrowing previous (.exact next))
        (.spell (run.tests index) (.ofPayload run.stop.payload))
    else
      let established := previous.atLeast next
      .guarded (narrowing previous established)
        (.spell (run.tests index) (run.stop.branch condense next established))
  | none => n.branch condense index previous
termination_by 2 * n.count + 1
decreasing_by
  · have := count_stop_firstRun?_lt ‹_›
    omega
  · omega

/-- The decision of a node that does not begin with a run. -/
def branch (condense : Bool) (n : Node V) (index : Nat) (previous : LengthRange) : Decision V :=
  let range := n.lengths (.exact index)
  if n.isLeaf then
    match n.payload with
    | some payload => .guarded (narrowing previous range) (.accept payload)
    | none => .miss
  else
    let below := range.atLeast (index + 1)
    .guarded (narrowing previous range)
      (.dispatch index n.payload
        (n.children.map fun m => (m.char, m.decision condense (index + 1) below)))
termination_by 2 * n.count
decreasing_by
  have := count_lt_of_mem ‹m ∈ n.children›
  omega

end

/-! ### What a node becomes, case by case -/

variable {condense : Bool} {n : Node V} {run : Run V}

theorem decision_of_endsAtLeaf (h : n.firstRun? condense = some run) (hleaf : run.endsAtLeaf)
    (index : Nat) (previous : LengthRange) :
    n.decision condense index previous =
      .guarded (narrowing previous (.exact (index + run.length)))
        (.spell (run.tests index) (.ofPayload run.stop.payload)) := by
  rw [decision]
  split
  · rename_i run' h'
    obtain rfl := Option.some.inj (h.symm.trans h')
    exact if_pos hleaf
  · rename_i h'
    simp [h] at h'

theorem decision_of_not_endsAtLeaf (h : n.firstRun? condense = some run) (hleaf : ¬ run.endsAtLeaf)
    (index : Nat) (previous : LengthRange) :
    n.decision condense index previous =
      .guarded (narrowing previous (previous.atLeast (index + run.length)))
        (.spell (run.tests index) (run.stop.branch condense (index + run.length)
          (previous.atLeast (index + run.length)))) := by
  rw [decision]
  split
  · rename_i run' h'
    obtain rfl := Option.some.inj (h.symm.trans h')
    exact if_neg hleaf
  · rename_i h'
    simp [h] at h'

theorem decision_of_firstRun?_eq_none (h : n.firstRun? condense = none) (index : Nat)
    (previous : LengthRange) :
    n.decision condense index previous = n.branch condense index previous := by
  rw [decision]
  split
  · rename_i h'
    simp [h] at h'
  · rfl

theorem branch_of_payload_eq_some (hleaf : n.isLeaf) {payload : V} (h : n.payload = some payload)
    (index : Nat) (previous : LengthRange) :
    n.branch condense index previous =
      .guarded (narrowing previous (n.lengths (.exact index))) (.accept payload) := by
  rw [branch]
  simp [hleaf, h]

theorem branch_of_payload_eq_none (hleaf : n.isLeaf) (h : n.payload = none) (index : Nat)
    (previous : LengthRange) : n.branch condense index previous = .miss := by
  rw [branch]
  simp [hleaf, h]

theorem branch_of_not_isLeaf (hleaf : ¬ n.isLeaf) (index : Nat) (previous : LengthRange) :
    n.branch condense index previous =
      .guarded (narrowing previous (n.lengths (.exact index)))
        (.dispatch index n.payload (n.children.map fun m =>
          (m.char, m.decision condense (index + 1)
            ((n.lengths (.exact index)).atLeast (index + 1))))) := by
  rw [branch]
  simp [hleaf]

/-- What holds of the decision of every node, if it holds of what a node becomes in each case and,
where decisions of other nodes are part of that, of these. A branch behind a run counts as a
decision of the node where the run stops. -/
theorem decision_induction {condense : Bool}
    {motive : Node V → Nat → LengthRange → Decision V → Prop}
    (runToLeaf : ∀ n index previous run, n.firstRun? condense = some run → run.endsAtLeaf →
      motive n index previous (.guarded (narrowing previous (.exact (index + run.length)))
        (.spell (run.tests index) (.ofPayload run.stop.payload))))
    (runOn : ∀ n index previous run next, n.firstRun? condense = some run → ¬ run.endsAtLeaf →
      motive run.stop (index + run.length) (previous.atLeast (index + run.length)) next →
      motive n index previous (.guarded
        (narrowing previous (previous.atLeast (index + run.length)))
        (.spell (run.tests index) next)))
    (leaf : ∀ n index previous payload, n.isLeaf → n.payload = some payload →
      motive n index previous
        (.guarded (narrowing previous (n.lengths (.exact index))) (.accept payload)))
    (bareLeaf : ∀ n index previous, n.isLeaf → n.payload = none → motive n index previous .miss)
    (branch : ∀ n index previous (next : Node V → Decision V), ¬ n.isLeaf →
      (∀ m ∈ n.children, motive m (index + 1) ((n.lengths (.exact index)).atLeast (index + 1))
        (next m)) →
      motive n index previous (.guarded (narrowing previous (n.lengths (.exact index)))
        (.dispatch index n.payload (n.children.map fun m => (m.char, next m)))))
    (n : Node V) (index : Nat) (previous : LengthRange) :
    motive n index previous (n.decision condense index previous) := by
  have hboth : (∀ (n : Node V) index previous,
      motive n index previous (n.decision condense index previous)) ∧
      ∀ (n : Node V) index previous,
        motive n index previous (n.branch condense index previous) := by
    apply decision.mutual_induct
    case case1 =>
      intro n index previous run hrun hleaf
      rw [decision_of_endsAtLeaf hrun hleaf]
      exact runToLeaf n index previous run hrun hleaf
    case case2 =>
      intro n index previous run hrun next hleaf established ih
      rw [decision_of_not_endsAtLeaf hrun hleaf]
      exact runOn n index previous run _ hrun hleaf ih
    case case3 =>
      intro n index previous hrun ih
      rw [decision_of_firstRun?_eq_none hrun]
      exact ih
    case case4 =>
      intro n index previous hleaf payload hpayload
      rw [branch_of_payload_eq_some hleaf hpayload]
      exact leaf n index previous payload hleaf hpayload
    case case5 =>
      intro n index previous hleaf hpayload
      rw [branch_of_payload_eq_none hleaf hpayload]
      exact bareLeaf n index previous hleaf hpayload
    case case6 =>
      intro n index previous range hleaf below ih
      rw [branch_of_not_isLeaf hleaf]
      exact branch n index previous _ hleaf ih
  exact hboth.1 n index previous

end Node

/-- The decision that finds the payloads of a trie's labels. -/
def Trie.synthesize (t : Trie V) (condense : Bool) : Decision V :=
  t.root.decision condense 0 .unconstrained

end Lexicon
