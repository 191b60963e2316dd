import Lexicon.Proofs.Decision.Bounds
import Lexicon.Proofs.Matching
import Lexicon.Proofs.Source.Agreement
import Lexicon.Proofs.Synthesis.Shape

/-!
# Index safety

No evaluation of a synthesized decision reads beyond the end of its input, and neither does the
function that is emitted for it (`index_safety`). Behind the guard of a run every input is as long
as the run reaches; behind that of a branch every input is as long as the shortest label through the
node, so that it can end at the branch only if a label does.
-/

namespace Lexicon

open LengthCheck (narrowing)
open LengthRange (limit)
open Source

universe u

variable {V : Type u}

/-! ### Synthesis -/

namespace Node

/-- The decision of a node stays within the inputs that reach the node. -/
theorem inBounds_decision (condense : Bool) {n : Node V} {index : Nat} {previous : LengthRange}
    {length : Nat} (h : n.Reached index previous length) :
    (n.decision condense index previous).InBounds length := by
  revert h
  refine decision_induction
    (motive := fun n index previous d => n.Reached index previous length → d.InBounds length)
    ?runToLeaf ?runOn ?leaf ?bareLeaf ?branch n index previous
  case runToLeaf =>
    intro n index previous run hrun hleaf h
    -- behind the guard, whether written or left out, the input is as long as the label
    refine Decision.inBounds_guarded fun hadmits => ?_
    have hlen : length = index + run.length := (h.admits_run_endsAtLeaf hrun).1 hadmits
    refine .spell (fun test htest => ?_) (Decision.inBounds_ofPayload _)
    rw [hlen]
    exact Run.offset_lt_of_mem_tests htest
  case runOn =>
    intro n index previous run next hrun _ ih h
    refine Decision.inBounds_guarded fun hadmits => ?_
    have hle : index + run.length ≤ length := (h.admits_run hrun).1 hadmits
    refine .spell (fun test htest => ?_) (ih (h.stop hrun hle))
    exact Nat.lt_of_lt_of_le (Run.offset_lt_of_mem_tests htest) hle
  case leaf =>
    intro n index previous payload hleaf hpayload h
    exact Decision.inBounds_guarded fun _ => .accept payload
  case bareLeaf =>
    intro n index previous hleaf hpayload h
    exact .miss
  case branch =>
    intro n index previous next hleaf ih h
    refine Decision.inBounds_guarded fun hadmits => ?_
    by_cases hlen : length = index
    · -- an input that ends here was admitted, so the shortest label ends here too
      obtain ⟨lo, hi, hlo, -, -, -, hiff⟩ := h.admits_branch hleaf
      have hbounds := hiff.1 hadmits
      obtain rfl : lo = 0 := by omega
      exact .ends hlen (isTerminal_of_zero_mem_wordLengths hlo.1)
    · have hindex := h.index_le
      refine .goesOn (by omega) fun entry hentry => ?_
      obtain ⟨m, hm, rfl⟩ := List.mem_map.1 hentry
      exact ih m hm (h.child hm hadmits hlen)

end Node

theorem Trie.inBounds_synthesize {table : Table V}
    (hshort : ∀ entry ∈ table.entries, entry.label.length < limit) (condense : Bool)
    (length : Nat) : ((ofTable table).synthesize condense).InBounds length :=
  Node.inBounds_decision condense (reached_root hshort length)

/-! ### Source -/

/-- A match goes on with one of its arms, or with none. -/
private theorem Source.Block.runArms_eq_or (cs : List Char) (c : Char)
    (arms : List (Char × Block)) :
    Block.runArms cs c arms = .value none ∨ ∃ arm ∈ arms, Block.runArms cs c arms = arm.2.run cs := by
  induction arms with
  | nil => exact .inl rfl
  | cons arm rest ih =>
    rw [Block.runArms]
    by_cases hc : c = arm.1
    · rw [if_pos hc]
      exact .inr ⟨arm, List.mem_cons_self, rfl⟩
    · rw [if_neg hc]
      rcases ih with hnone | ⟨other, hother, heq⟩
      · exact .inl hnone
      · exact .inr ⟨other, List.mem_cons_of_mem _ hother, heq⟩

namespace Decision

variable {fold : CaseFold} {render : V → String} {cs : List Char}

/-- Tests within the input can be tried. -/
private theorem isSome_run_failure {tests : List CharTest}
    (h : ∀ test ∈ tests, test.offset < cs.length) :
    (Condition.run cs (tests.map (CharTest.failure fold))).isSome := by
  induction tests with
  | nil => rfl
  | cons test tests ih =>
    have hread := List.getElem?_eq_getElem (h test List.mem_cons_self)
    rw [List.map_cons, Condition.run, CharTest.failure, Source.Test.run, CharRead.run_eq, hread,
      Option.map_some, Option.map_some]
    cases fold.apply (cs.get ⟨test.offset, h test List.mem_cons_self⟩) != test.char with
    | true => rfl
    | false => exact ih fun t ht => h t (List.mem_cons_of_mem _ ht)

private theorem run_select_ne_panic {offset : Nat} (hlt : offset < cs.length)
    {cases : List (Char × Decision V)}
    (h : ∀ entry ∈ cases, (entry.2.toBlock fold render).run cs ≠ .panic) :
    (Block.select ⟨offset, !fold.isOrdinal⟩ (armsOfCases fold render cases)).run cs ≠ .panic := by
  rw [Block.run, CharRead.run_eq, List.getElem?_eq_getElem hlt, Option.map_some]
  dsimp only
  rcases Source.Block.runArms_eq_or cs (fold.apply cs[offset]) (armsOfCases fold render cases) with
    hnone | ⟨arm, harm, heq⟩
  · rw [hnone]
    exact Outcome.value_ne_panic _
  · rw [armsOfCases_eq_map] at harm
    obtain ⟨entry, hentry, rfl⟩ := List.mem_map.1 harm
    rw [heq]
    exact h entry hentry

/-- The function that a decision is emitted as does not panic on an input within whose bounds the
decision stays. -/
theorem run_toBlock_ne_panic {d : Decision V} (h : d.InBounds cs.length) :
    (d.toBlock fold render).run cs ≠ .panic := by
  induction h with
  | @guard check next _ ih =>
    rw [toBlock, Block.run, LengthCheck.run_failure]
    cases hadmits : check.admits cs.length with
    | true => exact ih hadmits
    | false => exact Outcome.value_ne_panic _
  | @spell tests next htests _ ih =>
    obtain ⟨fails, hfails⟩ := Option.isSome_iff_exists.1 (isSome_run_failure htests)
    rw [toBlock, Block.run, hfails]
    cases fails with
    | true => exact Outcome.value_ne_panic _
    | false => exact ih
  | @ends offset onEnd cases hlen hend =>
    obtain ⟨payload, rfl⟩ := Option.isSome_iff_exists.1 hend
    rw [toBlock, Block.run_exitIf_cons, Source.Test.run, Comparison.holds, decide_eq_true hlen]
    exact Outcome.value_ne_panic _
  | @goesOn offset onEnd cases hlt _ ih =>
    have hchoice := run_select_ne_panic hlt ih
    cases onEnd with
    | none => exact hchoice
    | some payload =>
      rw [toBlock, Block.run_exitIf_cons, Source.Test.run, Comparison.holds,
        decide_eq_false (Nat.ne_of_gt hlt)]
      exact hchoice
  | accept payload => exact Outcome.value_ne_panic _
  | miss => exact Outcome.value_ne_panic _

end Decision

/-- **Index safety.** Whatever the labels, the fold and the input, an evaluation of the synthesized
decision that comes to a run finds all its offsets within the input; one that comes to a branch
finds its offset there, or the input at its end and a payload for that; and no reading of the cursor
fails. The text that is emitted for the decision consists of pieces, which are read as a function
that panics on no input. -/
theorem index_safety {table : Table V}
    (hshort : ∀ entry ∈ table.entries, entry.label.length < limit) (condense : Bool) :
    (∀ {α : Type} [Subject α] (fold : CaseFold) (input : α) (place : Decision.Place V),
      ((Trie.ofTable table).synthesize condense).Arrives fold input place →
        (∀ tests next, place.1 = .spell tests next →
          ∀ test ∈ tests, test.offset < Subject.length input) ∧
        (∀ offset onEnd cases, place.1 = .dispatch offset onEnd cases →
          offset < Subject.length input ∨ Subject.length input = offset ∧ onEnd.isSome) ∧
        ∀ offset, place.1.nextOffset? (Subject.length input) = some offset →
          (place.2.read offset).isSome) ∧
    ∀ (signature : Signature) (render : V → String),
      ((((Trie.ofTable table).synthesize condense).emit signature render).toList =
        (((Trie.ofTable table).synthesize condense).emitSource signature render).flatMap fun
          | .written text => text.toList
          | .given text => text.toList) ∧
      ∃ f, Source.read (((Trie.ofTable table).synthesize condense).emitSource signature render) =
        some f ∧ ∀ cs : List Char, f.run cs ≠ .panic := by
  have hbounds := Trie.inBounds_synthesize hshort condense
  have hwell := Trie.wellFormed_synthesize table condense
  constructor
  · intro α _ fold input place harrives
    have hplace := harrives.inBounds (hbounds (Subject.length input))
    refine ⟨fun tests next heq => ?_, fun offset onEnd cases heq => ?_, fun offset hnext => ?_⟩
    · exact (heq ▸ hplace).offset_lt_of_spell
    · exact (heq ▸ hplace).offset_lt_or_of_dispatch
    · exact (harrives.aligned hwell).isSome_read hnext (hplace.nextOffset?_lt hnext)
  · intro signature render
    exact ⟨toList_textOf _, _, Decision.read_emitSource hwell.tests_ne_nil signature render,
      fun cs => Decision.run_toBlock_ne_panic (hbounds cs.length)⟩

/-- With a label that is another's prefix, the empty input included, neither backend reads beyond
the end. -/
theorem index_safety_prefix : ∃ table : Table Nat,
    Table.build .ordinal [("a", 0), ("abc", 1), ("abcd", 2)] = .ok table ∧
    (∀ entry ∈ table.entries, entry.label.length < limit) ∧
    ∃ f, Source.read (((Trie.ofTable table).synthesize true).emitSource
      (.new "find" "u8") toString) = some f ∧ f.run [] ≠ .panic ∧ f.run ['a'] ≠ .panic := by
  have hok : (Table.build .ordinal [("a", 0), ("abc", 1), ("abcd", 2)]).isOk := by decide +kernel
  obtain ⟨table, hbuild⟩ := Table.exists_of_isOk hok
  have hshort : ∀ entry ∈ table.entries, entry.label.length < limit :=
    Table.length_label_lt hbuild (by decide)
  obtain ⟨-, hsource⟩ := index_safety hshort true
  obtain ⟨-, f, hread, hrun⟩ := hsource (.new "find" "u8") toString
  exact ⟨table, hbuild, hshort, f, hread, hrun [], hrun ['a']⟩

end Lexicon
