import Lexicon.Proofs.Synthesis.Guards
import Lexicon.Proofs.Trie.Contents
import Lexicon.Decision.Erasure
import Lexicon.Trie.Plain

/-!
# A synthesized decision is its trie and guards

Without guards, and with runs spelled out, the decision of a trie is the plain decision read off the
trie, whether runs were asked for or not (`erase_synthesize`). The induction follows node and branch
of the synthesis at once; what it needs of a run is that the plain decision of the node where a
chain starts spells out the chain before that of the node where it stops.
-/

namespace Lexicon

universe u

variable {V : Type u}

namespace Node

/-- Along a chain the plain decision is spelled out. -/
theorem plainDecision_of_chain {n stop : Node V} {cs : List Char} (h : Chain n cs stop)
    (depth : Nat) :
    n.plainDecision depth =
      .spellOut (CharTest.consecutive depth cs) (stop.plainDecision (depth + cs.length)) := by
  induction h generalizing depth with
  | nil => rfl
  | @cons n m stop cs hpayload hchildren _ ih =>
    have hleaf : ¬ n.isLeaf := by simp [isLeaf, hchildren]
    rw [plainDecision_of_not_isLeaf hleaf, CharTest.consecutive, Decision.spellOut_cons,
      hpayload, hchildren, List.map_cons, List.map_nil, ih, List.length_cons, Nat.add_assoc,
      Nat.add_comm 1]

theorem erase_decision (condense : Bool) (n : Node V) (index : Nat) (previous : LengthRange) :
    (n.decision condense index previous).erase = n.plainDecision index := by
  refine decision_induction (motive := fun n index _ d => d.erase = n.plainDecision index)
    ?runToLeaf ?runOn ?leaf ?bareLeaf ?branch n index previous
  case runToLeaf =>
    intro n index previous run hrun hleaf
    have hplain := plainDecision_of_chain (chain_of_firstRun?_eq_some hrun).1 index
    rw [plainDecision_of_isLeaf hleaf] at hplain
    rw [Decision.erase_guarded, Decision.erase, Decision.erase_ofPayload, hplain, Run.tests]
  case runOn =>
    intro n index previous run next hrun _ ih
    -- the plain decision of the node spells out the chain up to where the run stops
    have hplain := plainDecision_of_chain (chain_of_firstRun?_eq_some hrun).1 index
    rw [Decision.erase_guarded, Decision.erase, ih, hplain, Run.tests]
    rfl
  case leaf =>
    intro n index previous payload hleaf hpayload
    rw [Decision.erase_guarded, plainDecision_of_isLeaf hleaf, hpayload]
    rfl
  case bareLeaf =>
    intro n index previous hleaf hpayload
    rw [plainDecision_of_isLeaf hleaf, hpayload]
    rfl
  case branch =>
    intro n index previous next hleaf ih
    rw [Decision.erase_guarded, Decision.erase, Decision.eraseCases_eq_map, List.map_map,
      plainDecision_of_not_isLeaf hleaf]
    congr 1
    exact List.map_congr_left fun m hm => congrArg (m.char, ·) (ih m hm)

/-- Every branch of a plain decision has its cases in the order of their characters. -/
theorem pairwise_of_dispatch_mem_heads_plainDecision {n : Node V} (h : n.Valid) {depth : Nat}
    {offset : Nat} {onEnd : Option V} {chars : List Char}
    (hmem : .dispatch offset onEnd chars ∈ (n.plainDecision depth).heads) :
    chars.Pairwise (· < ·) := by
  induction n using Node.induction generalizing depth with
  | step n ih =>
    by_cases hleaf : n.isLeaf
    · rw [plainDecision_of_isLeaf hleaf] at hmem
      cases hpayload : n.payload <;> simp [hpayload, Decision.ofPayload] at hmem
    · rw [plainDecision_of_not_isLeaf hleaf, Decision.heads_dispatch, List.mem_cons] at hmem
      rcases hmem with heq | hmem
      · obtain ⟨-, -, rfl⟩ := Head.dispatch.inj heq
        rw [List.map_map]
        exact h.ascending
      · obtain ⟨entry, hentry, hmem⟩ := List.mem_flatMap.1 hmem
        obtain ⟨m, hm, rfl⟩ := List.mem_map.1 hentry
        exact ih m hm (h.child hm) hmem

/-- The plain decision of a node that is no bare leaf has no miss. -/
theorem miss_notMem_heads_plainDecision {n : Node V} (h : n.Valid) (hterm : n.isLeaf → n.isTerminal)
    (depth : Nat) : .miss ∉ (n.plainDecision depth).heads := by
  induction n using Node.induction generalizing depth with
  | step n ih =>
    by_cases hleaf : n.isLeaf
    · obtain ⟨payload, hpayload⟩ := Option.isSome_iff_exists.1 (hterm hleaf)
      rw [plainDecision_of_isLeaf hleaf, hpayload]
      simp [Decision.ofPayload]
    · rw [plainDecision_of_not_isLeaf hleaf, Decision.heads_dispatch]
      rintro (_ | ⟨_, hmem⟩)
      obtain ⟨entry, hentry, hmem⟩ := List.mem_flatMap.1 hmem
      obtain ⟨m, hm, rfl⟩ := List.mem_map.1 hentry
      exact ih m hm (h.child hm) (h.isTerminal hm) _ hmem

end Node

/-- **A decision is its trie and guards.** With guards dropped and runs spelled out, the decision of
the trie of a table is the plain decision of the trie, and so the same with runs and without. In it
the cases of every branch are in the order of their characters, and a miss occurs only as the whole
decision of the empty table. -/
theorem erase_synthesize (table : Table V) (condense : Bool) :
    ((Trie.ofTable table).synthesize condense).erase = (Trie.ofTable table).plainDecision ∧
      ((Trie.ofTable table).synthesize condense).erase =
        ((Trie.ofTable table).synthesize !condense).erase ∧
      (∀ offset onEnd chars, .dispatch offset onEnd chars ∈ (Trie.ofTable table).plainDecision.heads →
        chars.Pairwise (· < ·)) ∧
      (.miss ∈ (Trie.ofTable table).plainDecision.heads ↔ table.entries = #[]) ∧
      (table.entries = #[] → (Trie.ofTable table).plainDecision = .miss) := by
  have herase : ∀ condense, ((Trie.ofTable table).synthesize condense).erase =
      (Trie.ofTable table).plainDecision := fun condense =>
    Node.erase_decision condense _ 0 .unconstrained
  have hempty : table.entries = #[] → (Trie.ofTable table).plainDecision = .miss := by
    intro h
    rw [Trie.plainDecision, Trie.ofTable, h]
    exact Node.plainDecision_of_isLeaf rfl 0
  refine ⟨herase condense, (herase condense).trans (herase !condense).symm, ?_, ?_, hempty⟩
  · intro offset onEnd chars hmem
    exact Node.pairwise_of_dispatch_mem_heads_plainDecision (Trie.valid_root_ofTable table) hmem
  · refine ⟨fun hmem => ?_, fun h => by rw [hempty h]; simp⟩
    by_contra hne
    have hlist : table.entries.toList ≠ [] := fun h => hne (Array.toList_eq_nil_iff.1 h)
    exact Node.miss_notMem_heads_plainDecision (Trie.valid_root_ofTable table)
      (Trie.isTerminal_root_ofTable hlist) 0 hmem

end Lexicon
