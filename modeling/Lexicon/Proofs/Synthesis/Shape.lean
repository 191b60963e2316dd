import Lexicon.Decision.Paths
import Lexicon.Proofs.Synthesis.Guards
import Lexicon.Proofs.Trie.Contents

/-!
# The shape of a synthesized decision

Along every path of a synthesized decision the offsets are 0, 1, 2 and so on without a gap
(`eq_range_of_isPath_synthesize`), runs are not empty, and branches have cases, in the order of
their characters. So the decision is well-formed (`wellFormed_synthesize`).
-/

namespace Lexicon

universe u

variable {V : Type u}

/-- What holds of the tests and cases that synthesis writes: there are some, and cases are in
order. -/
def Head.Filled : Head V → Prop
  | .spell tests => tests ≠ []
  | .dispatch _ _ chars => chars ≠ [] ∧ chars.Pairwise (· < ·)
  | _ => True

/-- The tests of a run stay below its end. -/
theorem Run.offset_lt_of_mem_tests {run : Run V} {index : Nat} {test : CharTest}
    (h : test ∈ run.tests index) : test.offset < index + run.length := by
  have hmem : test.offset ∈ (run.tests index).map CharTest.offset := List.mem_map.2 ⟨test, h, rfl⟩
  rw [Run.tests, CharTest.map_offset_consecutive, List.mem_range'_1] at hmem
  exact hmem.2

/-- The last test of a run stands right in front of its end. -/
theorem Run.getLast?_tests {run : Run V} (h : run.chars ≠ []) (index : Nat) :
    ∃ last, (run.tests index).getLast? = some last ∧ last.offset + 1 = index + run.length := by
  have hlength : 0 < run.length := List.length_pos_iff.2 h
  have hoffset : (run.tests index).getLast?.map CharTest.offset =
      some (index + run.length - 1) := by
    rw [← List.getLast?_map, Run.tests, CharTest.map_offset_consecutive, List.getLast?_range']
    exact if_neg (Nat.ne_of_gt hlength)
  obtain ⟨last, hlast, heq⟩ := Option.map_eq_some_iff.1 hoffset
  exact ⟨last, hlast, by omega⟩

namespace Node

theorem run_tests_ne_nil {condense : Bool} {n : Node V} {run : Run V}
    (h : n.firstRun? condense = some run) (index : Nat) : run.tests index ≠ [] := by
  rw [← List.length_pos_iff, Run.length_tests]
  exact List.length_pos_iff.2 (chain_of_firstRun?_eq_some h).2

/-- Tests of consecutive offsets, in front of consecutive offsets. -/
private theorem range'_tests_append (run : Run V) (index : Nat) {offsets : List Nat}
    (h : offsets = List.range' (index + run.length) offsets.length) :
    (run.tests index).map CharTest.offset ++ offsets =
      List.range' index ((run.tests index).map CharTest.offset ++ offsets).length := by
  rw [List.length_append, List.length_map, Run.length_tests, Run.tests,
    CharTest.map_offset_consecutive]
  conv_lhs => rw [h]
  exact List.range'_append_1

/-- Along every path of the decision of a node the input is read character by character from the
offset of the node on. -/
theorem eq_range'_of_isPath {condense : Bool} {n : Node V} {index : Nat} {previous : LengthRange}
    {offsets : List Nat} (h : (n.decision condense index previous).IsPath offsets) :
    offsets = List.range' index offsets.length := by
  revert offsets
  refine decision_induction
    (motive := fun _ index _ d => ∀ {offsets : List Nat}, d.IsPath offsets →
      offsets = List.range' index offsets.length)
    ?runToLeaf ?runOn ?leaf ?bareLeaf ?branch n index previous
  case runToLeaf =>
    intro n index previous run hrun hleaf offsets h
    rw [Decision.isPath_guarded, Decision.isPath_spell] at h
    obtain ⟨rest, hrest, rfl⟩ := h
    obtain rfl := Decision.isPath_ofPayload.1 hrest
    exact range'_tests_append run index rfl
  case runOn =>
    intro n index previous run next hrun _ ih offsets h
    rw [Decision.isPath_guarded, Decision.isPath_spell] at h
    obtain ⟨rest, hrest, rfl⟩ := h
    exact range'_tests_append run index (ih hrest)
  case leaf =>
    intro n index previous payload hleaf hpayload offsets h
    rw [Decision.isPath_guarded, Decision.isPath_accept] at h
    rw [h]
    rfl
  case bareLeaf =>
    intro n index previous hleaf hpayload offsets h
    rw [Decision.isPath_miss] at h
    rw [h]
    rfl
  case branch =>
    intro n index previous next hleaf ih offsets h
    rw [Decision.isPath_guarded, Decision.isPath_dispatch] at h
    rcases h with rfl | ⟨entry, hentry, rest, hrest, rfl⟩
    · rfl
    · obtain ⟨m, hm, rfl⟩ := List.mem_map.1 hentry
      have heq := ih m hm hrest
      rw [List.length_cons, List.range'_succ, ← heq]

/-- The heads behind a guard that may be absent. -/
private theorem forall_heads_guarded {p : Head V → Prop} (hguard : ∀ check, p (.guard check))
    {next : Decision V} (h : ∀ head ∈ next.heads, p head) (check : Option LengthCheck) :
    ∀ head ∈ (Decision.guarded check next).heads, p head := by
  cases check with
  | none => exact h
  | some check =>
    rw [Decision.guarded_some, Decision.heads_guard]
    exact List.forall_mem_cons.2 ⟨hguard check, h⟩

theorem filled_heads (condense : Bool) {n : Node V} (h : n.Valid) (index : Nat)
    (previous : LengthRange) :
    ∀ head ∈ (n.decision condense index previous).heads, head.Filled := by
  revert h
  refine decision_induction (motive := fun n _ _ d => n.Valid → ∀ head ∈ d.heads, head.Filled)
    ?runToLeaf ?runOn ?leaf ?bareLeaf ?branch n index previous
  case runToLeaf =>
    intro n index previous run hrun hleaf h
    refine forall_heads_guarded (fun _ => trivial) ?_ _
    rw [Decision.heads_spell]
    refine List.forall_mem_cons.2 ⟨run_tests_ne_nil hrun index, ?_⟩
    cases run.stop.payload <;> simp [Decision.ofPayload, Head.Filled]
  case runOn =>
    intro n index previous run next hrun _ ih h
    refine forall_heads_guarded (fun _ => trivial) ?_ _
    rw [Decision.heads_spell]
    exact List.forall_mem_cons.2 ⟨run_tests_ne_nil hrun index,
      ih ((chain_of_firstRun?_eq_some hrun).1.valid h)⟩
  case leaf =>
    intro n index previous payload hleaf hpayload h
    refine forall_heads_guarded (fun _ => trivial) ?_ _
    simp [Head.Filled]
  case bareLeaf =>
    intro n index previous hleaf hpayload h
    simp [Head.Filled]
  case branch =>
    intro n index previous next hleaf ih h
    refine forall_heads_guarded (fun _ => trivial) ?_ _
    rw [Decision.heads_dispatch, List.map_map]
    refine List.forall_mem_cons.2 ⟨⟨?_, h.ascending⟩, ?_⟩
    · simpa [isLeaf] using hleaf
    · intro head hhead
      obtain ⟨entry, hentry, hhead⟩ := List.mem_flatMap.1 hhead
      obtain ⟨m, hm, rfl⟩ := List.mem_map.1 hentry
      exact ih m hm (h.child hm) head hhead

end Node

namespace Trie

variable (table : Table V) (condense : Bool)

/-- Along every path of a synthesized decision the input is read character by character. -/
theorem eq_range_of_isPath_synthesize {offsets : List Nat}
    (h : ((ofTable table).synthesize condense).IsPath offsets) :
    offsets = List.range offsets.length := by
  rw [List.range_eq_range']
  exact Node.eq_range'_of_isPath h

theorem filled_of_mem_heads_synthesize {head : Head V}
    (h : head ∈ ((ofTable table).synthesize condense).heads) : head.Filled :=
  Node.filled_heads condense (valid_root_ofTable table) 0 .unconstrained head h

/-- **A synthesized decision is well-formed.** -/
theorem wellFormed_synthesize : ((ofTable table).synthesize condense).WellFormed where
  offsets_ascending offsets h := by
    rw [eq_range_of_isPath_synthesize table condense h]
    exact List.pairwise_lt_range
  tests_ne_nil tests h := filled_of_mem_heads_synthesize table condense h
  chars_ascending offset onEnd chars h := (filled_of_mem_heads_synthesize table condense h).2

end Trie

end Lexicon
