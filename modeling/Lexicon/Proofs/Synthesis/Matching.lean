import Lexicon.Proofs.Decision.Cursor
import Lexicon.Proofs.Synthesis.Guards
import Lexicon.Proofs.Trie.Contents
import Lexicon.Matcher

/-!
# Matching is exact

The decision of a node, started at the node's offset with what is known of the length, finds what
the rest of the folded input leads to from the node (`run_decision`). What carries the induction is
that the lengths known on arrival allow the length of the input: then a guard rejects only inputs
that lead to no label, and a guard that is left out would have admitted the input anyway.
-/

namespace Lexicon

open LengthCheck (narrowing admitsAll admits_narrowing_iff_allows)
open LengthRange (limit)

universe u

variable {V : Type u}

theorem Decision.run_guarded (fold : CaseFold) (length : Nat) (check : Option LengthCheck)
    (next : Decision V) (cursor : Cursor) :
    (Decision.guarded check next).run fold length cursor =
      if admitsAll check length then next.run fold length cursor else none := by
  cases check with
  | none => rw [guarded_none]; rfl
  | some check => rw [guarded_some, Decision.run]; rfl

namespace Node

/-- A branch over the children of a node has the cases of the node's children. -/
theorem case?_dispatch_map {n : Node V} (h : Ascending n.children) (offset : Nat)
    (onEnd : Option V) (f : Node V → Decision V) (c : Char) :
    (Decision.dispatch offset onEnd (n.children.map fun m => (m.char, f m))).case? c =
      (n.child? c).map f := by
  refine Option.ext fun d => ?_
  have hkeys : ((n.children.map fun m => (m.char, f m)).map Prod.fst).Pairwise (· < ·) := by
    rw [List.map_map]
    exact h
  rw [Decision.case?_dispatch_eq_some_iff hkeys, Option.map_eq_some_iff, List.mem_map]
  constructor
  · rintro ⟨m, hm, heq⟩
    obtain ⟨rfl, rfl⟩ := Prod.mk.inj heq
    exact ⟨m, child?_char h hm, rfl⟩
  · rintro ⟨m, hm, rfl⟩
    obtain ⟨hmem, rfl⟩ := (child?_eq_some_iff h).1 hm
    exact ⟨m, hmem, rfl⟩

/-! ### A node and the rest of an input -/

/-- The folded characters of an input from an offset on. -/
def word (fold : CaseFold) (cs : List Char) (index : Nat) : List Char :=
  (cs.drop index).map fold.apply

@[simp] theorem length_word (fold : CaseFold) (cs : List Char) (index : Nat) :
    (word fold cs index).length = cs.length - index := by
  rw [word, List.length_map, List.length_drop]

theorem word_eq_cons {fold : CaseFold} {cs : List Char} {index : Nat} (h : index < cs.length) :
    word fold cs index = fold.apply cs[index] :: word fold cs (index + 1) := by
  rw [word, List.drop_eq_getElem_cons h, List.map_cons, word]

/-- An input that ends at a leaf leads to its payload, a longer one nowhere. -/
theorem lookup?_word_of_isLeaf {n : Node V} (h : n.isLeaf) (fold : CaseFold) {cs : List Char}
    {index : Nat} (hle : index ≤ cs.length) :
    n.lookup? (word fold cs index) = if cs.length = index then n.payload else none := by
  have hnil : word fold cs index = [] ↔ cs.length = index := by
    rw [← List.length_eq_zero_iff, length_word]
    omega
  rw [lookup?_of_isLeaf h]
  exact if_congr hnil rfl rfl

section Run

variable {n : Node V} {run : Run V} {fold : CaseFold} {cs : List Char} {index : Nat}

/-- The tests of a run decide: they pass if the input goes on with its characters, and an input on
which they fail leads nowhere. -/
private theorem passAll_tests (h : Chain n run.chars run.stop) (fold : CaseFold) (cs : List Char)
    (index : Nat) :
    (cursorAt cs index).passAll fold (run.tests index) = some (cursorAt cs (index + run.length)) ∧
      n.lookup? (word fold cs index) = run.stop.lookup? (word fold cs (index + run.length)) ∨
    (cursorAt cs index).passAll fold (run.tests index) = none ∧
      n.lookup? (word fold cs index) = none := by
  rw [Run.tests, passAll_consecutive, Run.length]
  by_cases hprefix : run.chars <+: word fold cs index
  · obtain ⟨rest, hrest⟩ := hprefix
    have hdrop : rest = word fold cs (index + run.chars.length) := by
      have := congrArg (List.drop run.chars.length) hrest
      rwa [List.drop_left, word, ← List.map_drop, List.drop_drop] at this
    refine .inl ⟨if_pos ⟨rest, hrest⟩, ?_⟩
    rw [← hrest, h.lookup?_append, hdrop]
  · refine .inr ⟨if_neg hprefix, ?_⟩
    by_contra hne
    obtain ⟨rest, hrest⟩ := h.exists_eq_append (Option.isSome_iff_ne_none.2 hne)
    exact hprefix ⟨rest, hrest.symm⟩

/-- An input that is too short for a run leads nowhere. -/
private theorem lookup?_word_of_lt (h : Chain n run.chars run.stop)
    (hlt : cs.length < index + run.length) (hle : index ≤ cs.length) :
    n.lookup? (word fold cs index) = none := by
  by_contra hne
  obtain ⟨rest, hrest⟩ := h.exists_eq_append (Option.isSome_iff_ne_none.2 hne)
  have hlen := congrArg List.length hrest
  rw [length_word, List.length_append] at hlen
  rw [Run.length] at hlt
  omega

/-- Only an input that ends with it leads to the leaf at which a run ends. -/
private theorem lookup?_word_of_endsAtLeaf (h : Chain n run.chars run.stop) (hleaf : run.endsAtLeaf)
    (hne : cs.length ≠ index + run.length) (hle : index ≤ cs.length) :
    n.lookup? (word fold cs index) = none := by
  by_cases hlt : cs.length < index + run.length
  · exact lookup?_word_of_lt h hlt hle
  · rcases passAll_tests h fold cs index with ⟨-, hword⟩ | ⟨-, hword⟩
    · rw [hword, lookup?_word_of_isLeaf hleaf fold (Nat.not_lt.1 hlt), if_neg hne]
    · exact hword

end Run

/-- **The decision of a node answers as the node does**, for every input that reaches it. -/
theorem run_decision (condense : Bool) (fold : CaseFold) {cs : List Char} {n : Node V} {index : Nat}
    {previous : LengthRange} (h : n.Reached index previous cs.length) :
    (n.decision condense index previous).run fold cs.length (cursorAt cs index) =
      n.lookup? (word fold cs index) := by
  revert h
  refine decision_induction
    (motive := fun n index previous d => n.Reached index previous cs.length →
      d.run fold cs.length (cursorAt cs index) = n.lookup? (word fold cs index))
    ?runToLeaf ?runOn ?leaf ?bareLeaf ?branch n index previous
  case runToLeaf =>
    intro n index previous run hrun hleaf h
    obtain ⟨hchain, -⟩ := chain_of_firstRun?_eq_some hrun
    rw [Decision.run_guarded, Decision.run]
    by_cases hlen : cs.length = index + run.length
    · rw [if_pos ((h.admits_run_endsAtLeaf hrun).2 hlen)]
      rcases passAll_tests hchain fold cs index with ⟨hpass, hword⟩ | ⟨hpass, hword⟩
      · rw [hpass, hword, lookup?_word_of_isLeaf hleaf fold (Nat.le_of_eq hlen.symm), if_pos hlen]
        cases run.stop.payload <;> rfl
      · rw [hpass, hword]
    · rw [if_neg fun hadmits => hlen ((h.admits_run_endsAtLeaf hrun).1 hadmits)]
      exact (lookup?_word_of_endsAtLeaf hchain hleaf hlen h.index_le).symm
  case runOn =>
    intro n index previous run next hrun _ ih h
    obtain ⟨hchain, -⟩ := chain_of_firstRun?_eq_some hrun
    rw [Decision.run_guarded, Decision.run]
    -- an input too short for the run is rejected and leads nowhere
    by_cases hlen : index + run.length ≤ cs.length
    · rw [if_pos ((h.admits_run hrun).2 hlen)]
      rcases passAll_tests hchain fold cs index with ⟨hpass, hword⟩ | ⟨hpass, hword⟩
      · rw [hpass, hword]
        exact ih (h.stop hrun hlen)
      · rw [hpass, hword]
    · rw [if_neg fun hadmits => hlen ((h.admits_run hrun).1 hadmits)]
      exact (lookup?_word_of_lt hchain (Nat.not_le.1 hlen) h.index_le).symm
  case leaf =>
    intro n index previous payload hleaf hpayload h
    have hterm : n.isTerminal := by rw [isTerminal, hpayload]; rfl
    rw [Decision.run_guarded, Decision.run, lookup?_word_of_isLeaf hleaf fold h.index_le, hpayload]
    exact if_congr (h.admits_leaf hleaf hterm) rfl rfl
  case bareLeaf =>
    intro n index previous hleaf hpayload h
    rw [Decision.run, lookup?_word_of_isLeaf hleaf fold h.index_le, hpayload, ite_self]
  case branch =>
    intro n index previous next hleaf ih h
    obtain ⟨lo, hi, hlo, hhi, -, -, hiff⟩ := h.admits_branch hleaf
    have hindex := h.index_le
    rw [Decision.run_guarded]
    split
    · rename_i hadmits
      rw [Decision.run_dispatch]
      split
      · rename_i hlen
        rw [word, List.drop_eq_nil_of_le (Nat.le_of_eq hlen)]
        rfl
      · rename_i hlen
        have hlt : index < cs.length := by omega
        rw [read_cursorAt (Nat.le_refl index), List.getElem?_eq_getElem hlt, Option.map_some,
          Option.bind_some, word_eq_cons hlt, lookup?_cons]
        dsimp only
        rw [case?_dispatch_map h.valid.ascending, Option.bind_map]
        refine Option.bind_congr fun m hm => ?_
        obtain ⟨hmem, -⟩ := (child?_eq_some_iff h.valid.ascending).1 hm
        exact ih m hmem (h.child hmem hadmits hlen)
    · rename_i hrejects
      -- a rejected length is that of no label through the node
      by_contra hne
      have hword : (word fold cs index).length ∈ n.wordLengths :=
        ⟨_, Option.isSome_iff_ne_none.2 (Ne.symm hne), rfl⟩
      have hge := hlo.2 hword
      have hle := hhi.2 hword
      rw [length_word] at hge hle
      exact hrejects (hiff.2 (by omega))

end Node

end Lexicon
