import Lexicon.Proofs.Synthesis.Erasure
import Lexicon.Proofs.Trie.Canonicity

/-!
# Compilation is canonical

Synthesis does not look at the numbers of nodes (`Node.decision_unnumbered`), so tries that are equal
but for numbers have the same decision. Conversely a decision without its guards and runs is the
plain decision of its trie, from which the labels can be read back
(`Node.lookup?_eq_of_plainDecision_eq`). With a trie being its labels but for numbers, two tables
have the same decision if and only if they hold the same entries (`canonical_synthesis`).
-/

namespace Lexicon

universe u

variable {V : Type u}

/-! ### Synthesis does not look at numbers -/

namespace Node

theorem lengths_unnumbered (n : Node V) (incoming : LengthRange) :
    n.unnumbered.lengths incoming = n.lengths incoming := by
  induction n using Node.induction generalizing incoming with
  | step n ih =>
    obtain ⟨id, c, payload, children⟩ := n
    rw [unnumbered_mk]
    cases children with
    | nil => rfl
    | cons m rest =>
      have hrest : ∀ (known : LengthRange), ∀ k ∈ rest,
          known.union (k.unnumbered.lengths incoming.deeper) =
            known.union (k.lengths incoming.deeper) := by
        intro known k hk
        rw [ih k (List.mem_cons_of_mem m hk)]
      rw [List.map_cons, lengths, lengths, ih m (by simp), lengthsAll_eq_foldl,
        lengthsAll_eq_foldl, List.foldl_map, List.foldl_ext _ _ _ hrest]

theorem firstRun?_unnumbered (condense : Bool) (n : Node V) :
    n.unnumbered.firstRun? condense = (n.firstRun? condense).map Run.unnumbered := by
  cases condense with
  | false => rfl
  | true => exact run?_unnumbered n

theorem firstRun?_unnumbered_of_eq_some {condense : Bool} {n : Node V} {run : Run V}
    (h : n.firstRun? condense = some run) :
    n.unnumbered.firstRun? condense = some run.unnumbered := by
  rw [firstRun?_unnumbered, h, Option.map_some]

/-- The decision of a node does not depend on numbers. -/
theorem decision_unnumbered (condense : Bool) (n : Node V) (index : Nat)
    (previous : LengthRange) :
    n.unnumbered.decision condense index previous = n.decision condense index previous := by
  have hboth : (∀ (n : Node V) index previous, n.unnumbered.decision condense index previous =
        n.decision condense index previous) ∧
      ∀ (n : Node V) index previous, n.unnumbered.branch condense index previous =
        n.branch condense index previous := by
    apply decision.mutual_induct
    case case1 =>
      intro n index previous run hrun hleaf
      have hleaf' : run.unnumbered.endsAtLeaf := by rwa [Run.endsAtLeaf_unnumbered]
      rw [decision_of_endsAtLeaf hrun hleaf, decision_of_endsAtLeaf (firstRun?_unnumbered_of_eq_some hrun) hleaf',
        Run.length_unnumbered, Run.tests_unnumbered, Run.stop_unnumbered, payload_unnumbered]
    case case2 =>
      intro n index previous run hrun next hleaf established ih
      have hleaf' : ¬ run.unnumbered.endsAtLeaf := by rwa [Run.endsAtLeaf_unnumbered]
      rw [decision_of_not_endsAtLeaf hrun hleaf, decision_of_not_endsAtLeaf (firstRun?_unnumbered_of_eq_some hrun)
        hleaf', Run.length_unnumbered, Run.tests_unnumbered, Run.stop_unnumbered, ih]
    case case3 =>
      intro n index previous hrun ih
      have hrun' : n.unnumbered.firstRun? condense = none := by
        rw [firstRun?_unnumbered, hrun, Option.map_none]
      rw [decision_of_firstRun?_eq_none hrun, decision_of_firstRun?_eq_none hrun', ih]
    case case4 =>
      intro n index previous hleaf payload hpayload
      have hleaf' : n.unnumbered.isLeaf := by rwa [isLeaf_unnumbered]
      rw [branch_of_payload_eq_some hleaf hpayload,
        branch_of_payload_eq_some hleaf' ((payload_unnumbered n).trans hpayload),
        lengths_unnumbered]
    case case5 =>
      intro n index previous hleaf hpayload
      have hleaf' : n.unnumbered.isLeaf := by rwa [isLeaf_unnumbered]
      rw [branch_of_payload_eq_none hleaf hpayload,
        branch_of_payload_eq_none hleaf' ((payload_unnumbered n).trans hpayload)]
    case case6 =>
      intro n index previous range hleaf below ih
      have hleaf' : ¬ n.unnumbered.isLeaf := by rwa [isLeaf_unnumbered]
      have hcases : (n.children.map unnumbered).map (fun m =>
            (m.char, m.decision condense (index + 1) below)) =
          n.children.map fun m => (m.char, m.decision condense (index + 1) below) := by
        rw [List.map_map]
        refine List.map_congr_left fun m hm => ?_
        rw [Function.comp_apply, char_unnumbered, ih m hm]
      rw [branch_of_not_isLeaf hleaf, branch_of_not_isLeaf hleaf', lengths_unnumbered,
        payload_unnumbered, children_unnumbered, hcases]
  exact hboth.1 n index previous

end Node

/-! ### The labels read back from a plain decision -/

theorem Decision.ofPayload_injective : Function.Injective (ofPayload : Option V → Decision V) := by
  rintro (_ | payload) (_ | payload') h
  · rfl
  · cases h
  · cases h
  · exact congrArg some (accept.inj h)

namespace Node

theorem ofPayload_ne_plainDecision {n : Node V} (h : ¬ n.isLeaf) (payload : Option V)
    (depth : Nat) : .ofPayload payload ≠ n.plainDecision depth := by
  rw [plainDecision_of_not_isLeaf h]
  cases payload <;> simp [Decision.ofPayload]

/-- Nodes with the same plain decision have the same payload, and children for the same characters
with the same plain decisions. -/
theorem plainDecision_inj {n k : Node V} {depth : Nat}
    (h : n.plainDecision depth = k.plainDecision depth) :
    n.payload = k.payload ∧
      (n.children.map fun m => (m.char, m.plainDecision (depth + 1))) =
        k.children.map fun m => (m.char, m.plainDecision (depth + 1)) := by
  by_cases hn : n.isLeaf
  · rw [plainDecision_of_isLeaf hn] at h
    have hk : k.isLeaf := by
      by_contra hk
      exact ofPayload_ne_plainDecision hk _ depth h
    rw [plainDecision_of_isLeaf hk] at h
    rw [List.isEmpty_iff.1 hn, List.isEmpty_iff.1 hk]
    exact ⟨Decision.ofPayload_injective h, rfl⟩
  · have hk : ¬ k.isLeaf := by
      intro hk
      rw [plainDecision_of_isLeaf hk] at h
      exact ofPayload_ne_plainDecision hn _ depth h.symm
    rw [plainDecision_of_not_isLeaf hn, plainDecision_of_not_isLeaf hk] at h
    obtain ⟨-, hpayload, hcases⟩ := Decision.dispatch.inj h
    exact ⟨hpayload, hcases⟩

/-- Nodes with the same plain decision have the same labels. -/
theorem lookup?_eq_of_plainDecision_eq {n k : Node V} {depth : Nat}
    (h : n.plainDecision depth = k.plainDecision depth) (path : List Char) :
    n.lookup? path = k.lookup? path := by
  induction path generalizing n k depth with
  | nil => exact (plainDecision_inj h).1
  | cons c rest ih =>
    obtain ⟨-, hcases⟩ := plainDecision_inj h
    -- the case for `c` holds the plain decision of the child for `c`
    have hchild : (n.child? c).map (fun m => (m.char, m.plainDecision (depth + 1))) =
        (k.child? c).map fun m => (m.char, m.plainDecision (depth + 1)) := by
      have hfind := congrArg (List.find? fun entry => entry.1 = c) hcases
      rwa [List.find?_map, List.find?_map] at hfind
    rw [lookup?_cons, lookup?_cons]
    cases hn : n.child? c with
    | none =>
      rw [hn, Option.map_none, eq_comm, Option.map_eq_none_iff] at hchild
      rw [hchild]
    | some m =>
      rw [hn, Option.map_some, eq_comm, Option.map_eq_some_iff] at hchild
      obtain ⟨l, hl, heq⟩ := hchild
      rw [hl]
      exact ih (Prod.mk.inj heq).2.symm

end Node

/-! ### The main result -/

/-- Tables have the same decision if and only if they hold the same entries. -/
theorem Trie.synthesize_ofTable_eq_iff {table other : Table V} {condense : Bool} :
    (ofTable table).synthesize condense = (ofTable other).synthesize condense ↔
      ∀ entry, entry ∈ table.entries ↔ entry ∈ other.entries := by
  constructor
  · intro h
    have hplain := congrArg Decision.erase h
    rw [synthesize, synthesize, Node.erase_decision, Node.erase_decision] at hplain
    exact lookup?_root_ofTable_eq_iff.1 (Node.lookup?_eq_of_plainDecision_eq hplain)
  · intro h
    rw [synthesize, synthesize, ← Node.decision_unnumbered,
      unnumbered_root_ofTable_eq_iff.2 h, Node.decision_unnumbered]

/-- Of tables that differ in one entry only, the first does not hold the entry of the second. -/
theorem Table.notMem_of_ne {table other : Table V} {front back : List (Entry V)}
    {entry entry' : Entry V} (h : table.entries.toList = front ++ entry :: back)
    (h' : other.entries.toList = front ++ entry' :: back)
    (hne : entry ≠ entry') : entry ∉ other.entries := by
  have hnodup := table.nodup
  rw [h, List.map_append, List.map_cons, List.nodup_middle, List.nodup_cons,
    ← List.map_append] at hnodup
  -- the label of the entry occurs nowhere else in its own table
  have hothers : entry ∉ front ++ back := fun hmem => hnodup.1 (List.mem_map_of_mem hmem)
  rw [← Array.mem_toList_iff, h', List.mem_append, List.mem_cons, or_left_comm, ← List.mem_append]
  exact not_or.2 ⟨hne, hothers⟩

/-- **Compilation is canonical.** Two tables, under whatever folds, have the same decision if and
only if they hold the same entries, that is folded labels with their payloads. So the order of the
entries does not matter: it decides about the numbers of the nodes of the trie, and nothing else.
And tables that differ in the label or the payload of one entry have different decisions. -/
theorem canonical_synthesis (table other : Table V) (condense : Bool) :
    ((Trie.ofTable table).synthesize condense = (Trie.ofTable other).synthesize condense ↔
        ∀ entry, entry ∈ table.entries ↔ entry ∈ other.entries) ∧
      (table.entries.Perm other.entries →
        (Trie.ofTable table).synthesize condense = (Trie.ofTable other).synthesize condense ∧
          (Trie.ofTable table).root.unnumbered = (Trie.ofTable other).root.unnumbered) ∧
      (∃ (first second : Table Nat) (path : List Char), first.entries.Perm second.entries ∧
        ((Trie.ofTable first).node? path).map Node.id ≠
          ((Trie.ofTable second).node? path).map Node.id) ∧
      ∀ front back entry entry', table.entries.toList = front ++ entry :: back →
        other.entries.toList = front ++ entry' :: back →
        entry.label ≠ entry'.label ∨ entry.payload ≠ entry'.payload →
        (Trie.ofTable table).synthesize condense ≠ (Trie.ofTable other).synthesize condense := by
  refine ⟨Trie.synthesize_ofTable_eq_iff, fun hperm => ?_, ?_, ?_⟩
  · have hmem : ∀ entry, entry ∈ table.entries ↔ entry ∈ other.entries := fun _ => hperm.mem_iff
    exact ⟨Trie.synthesize_ofTable_eq_iff.2 hmem, Trie.unnumbered_root_ofTable_eq_iff.2 hmem⟩
  · exact ⟨⟨.ordinal, #[⟨"a", 0⟩, ⟨"b", 1⟩], by decide⟩, ⟨.ordinal, #[⟨"b", 1⟩, ⟨"a", 0⟩], by decide⟩,
      ['a'], Array.perm_iff_toList_perm.2 (.swap ..), by decide +kernel⟩
  · intro front back entry entry' h h' hne heq
    have hentry : entry ≠ entry' := by
      rintro rfl
      simp at hne
    refine Table.notMem_of_ne h h' hentry ((Trie.synthesize_ofTable_eq_iff.1 heq entry).1 ?_)
    rw [← Array.mem_toList_iff, h]
    exact List.mem_append_right _ (List.mem_cons_self)

end Lexicon
