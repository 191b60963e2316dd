import Lexicon.Proofs.Decision.Steps
import Lexicon.Proofs.Synthesis.Shape
import Lexicon.Proofs.Synthesis.Sites

/-!
# Invariants of synthesized decisions

What the nodes of a synthesized decision say themselves (`synthesis_invariants`): runs are not empty
and lead to a return or to a branch right behind them, branches have cases in order, and no offset
and no bound goes beyond the longest label. Along every path the offsets count up from zero, so an
evaluation inspects no character twice.
-/

namespace Lexicon

open LengthRange (limit)

universe u

variable {V : Type u}

namespace Node.Site

variable {condense : Bool} {n : Node V} {index : Nat} {known : LengthRange} {next : Decision V}

/-- A run tests something, all of it in front of the end of every label, and leads to a return or to
a branch right behind its last test. -/
theorem of_spell {tests : List CharTest} (h : Site condense n index known (.spell tests next)) :
    tests ≠ [] ∧
      (∀ test ∈ tests, ∀ path, (n.lookup? path).isSome → test.offset < index + path.length) ∧
      ∃ last, tests.getLast? = some last ∧ ((∃ payload, next = .accept payload) ∨
        ∃ check onEnd cases, next = .guarded check (.dispatch (last.offset + 1) onEnd cases)) := by
  obtain _ | ⟨isOpen, hbehind⟩ := h
  have hbefore : ∀ {run : Run V}, n.firstRun? condense = some run → ∀ test ∈ run.tests index,
      ∀ path, (n.lookup? path).isSome → test.offset < index + path.length := by
    intro run hrun test htest path hpath
    exact Nat.lt_of_lt_of_le (Run.offset_lt_of_mem_tests htest)
      (Nat.add_le_add_left (run_length_le hrun hpath) index)
  cases hbehind with
  | @runToLeaf run hrun hends =>
    obtain ⟨-, hne⟩ := chain_of_firstRun?_eq_some hrun
    obtain ⟨last, hlast, -⟩ := Run.getLast?_tests hne index
    obtain ⟨payload, hpayload⟩ := isOpen.exists_payload_stop hrun hends
    refine ⟨run_tests_ne_nil hrun index, hbefore hrun, last, hlast, .inl ⟨payload, ?_⟩⟩
    rw [hpayload, Decision.ofPayload]
  | @runOn run _ hrun hgoesOn =>
    obtain ⟨-, hne⟩ := chain_of_firstRun?_eq_some hrun
    obtain ⟨last, hlast, hoffset⟩ := Run.getLast?_tests hne index
    refine ⟨run_tests_ne_nil hrun index, hbefore hrun, last, hlast, .inr ?_⟩
    rw [branch_of_not_isLeaf hgoesOn, hoffset]
    exact ⟨_, _, _, rfl⟩

/-- A branch has cases in the order of their characters, and some label goes on there. -/
theorem of_dispatch {offset : Nat} {onEnd : Option V} {cases : List (Char × Decision V)}
    (h : Site condense n index known (.dispatch offset onEnd cases)) :
    cases ≠ [] ∧ (cases.map Prod.fst).Pairwise (· < ·) ∧
      ∃ path, (n.lookup? path).isSome ∧ offset < index + path.length := by
  obtain ⟨hleaf, rfl, -, -, hchars⟩ := h.dispatch_inv
  obtain ⟨path, hpath, hlonger⟩ := h.isOpen.valid.exists_longer hleaf
  refine ⟨?_, hchars ▸ h.isOpen.valid.ascending, path, hpath, Nat.lt_add_of_pos_right hlonger⟩
  rintro rfl
  exact hleaf (List.isEmpty_iff.2 (List.map_eq_nil_iff.1 hchars.symm))

/-- A guard asks for no more than the length of a label. -/
theorem of_guard {check : LengthCheck} (h : Site condense n index known (.guard check next))
    {bound : Nat} (hbound : bound ∈ check.bounds) :
    ∃ path, (n.lookup? path).isSome ∧ bound ≤ index + path.length := by
  obtain ⟨isOpen, hcheck, -, hmax, isOpen_needed, -⟩ | ⟨-, hbehind⟩ := h
  · rcases LengthCheck.eq_of_mem_bounds_narrowing hcheck hbound with rfl | ⟨rfl, hnew⟩
    · obtain ⟨path, hpath, hreached⟩ := isOpen_needed.exists_reached
      exact ⟨path, hpath, hreached.allows.1⟩
    · obtain ⟨path, hpath, heq⟩ := hmax.resolve_left hnew
      exact ⟨path, hpath, Nat.le_of_eq heq⟩
  · cases hbehind

end Node.Site

/-- **Invariants of synthesis.** In the decision synthesized for a table

* the offsets along every path are 0, 1, 2 and so on without gaps,
* every run tests something and leads to a return or to a branch, with a guard or without, at the
  offset just past its last test,
* every branch has cases, in strict order of their characters,
* every offset is below the length of the longest label, so that counting on from it stays below the
  limit, and no guard asks for more than that length,

and so no evaluation inspects a character twice. -/
theorem synthesis_invariants {table : Table V}
    (hshort : ∀ entry ∈ table.entries, entry.label.length < limit) (condense : Bool) :
    (∀ offsets, ((Trie.ofTable table).synthesize condense).IsPath offsets →
      offsets.Pairwise (· < ·) ∧ offsets = List.range offsets.length) ∧
    (∀ route tests next,
      ((Trie.ofTable table).synthesize condense).LeadsTo route (.spell tests next) →
        tests ≠ [] ∧
        (∃ last, tests.getLast? = some last ∧ ((∃ payload, next = .accept payload) ∨
          ∃ check onEnd cases, next = .guarded check (.dispatch (last.offset + 1) onEnd cases))) ∧
        ∀ test ∈ tests, test.offset + 1 < limit ∧
          ∃ entry ∈ table.entries, test.offset < entry.label.length) ∧
    (∀ route offset onEnd cases,
      ((Trie.ofTable table).synthesize condense).LeadsTo route (.dispatch offset onEnd cases) →
        cases ≠ [] ∧ (cases.map Prod.fst).Pairwise (· < ·) ∧ offset + 1 < limit ∧
        ∃ entry ∈ table.entries, offset < entry.label.length) ∧
    (∀ route check next,
      ((Trie.ofTable table).synthesize condense).LeadsTo route (.guard check next) →
        ∀ bound ∈ check.bounds, ∃ entry ∈ table.entries, bound ≤ entry.label.length) ∧
    ∀ {α : Type} [Subject α] (fold : CaseFold) (input : α) (offsets : List Nat),
      Decision.Inspects fold (Subject.length input)
        ((Trie.ofTable table).synthesize condense, .start (Subject.chars input)) offsets →
      offsets.Nodup := by
  have hpaths : ∀ offsets, ((Trie.ofTable table).synthesize condense).IsPath offsets →
      offsets.Pairwise (· < ·) ∧ offsets = List.range offsets.length := fun offsets h =>
    ⟨(Trie.wellFormed_synthesize table condense).offsets_ascending offsets h,
      Trie.eq_range_of_isPath_synthesize table condense h⟩
  -- what lies below the end of some label lies below the limit
  have hbelow : ∀ {offset : Nat}, (∃ entry ∈ table.entries, offset < entry.label.length) →
      offset + 1 < limit := by
    rintro offset ⟨entry, hentry, hlt⟩
    exact Nat.lt_of_le_of_lt hlt (hshort entry hentry)
  refine ⟨hpaths, ?_, ?_, ?_, ?_⟩
  · intro route tests next h
    obtain ⟨n, known, hnode, hsite, -⟩ := Trie.exists_site_of_ne_miss hshort h (by simp)
    obtain ⟨hne, hbefore, hlast⟩ := hsite.of_spell
    obtain ⟨path, hpath, -⟩ := hsite.isOpen.exists_reached
    obtain ⟨entry, hentry, -, hlength⟩ := Trie.exists_entry_of_isSome hnode hpath
    refine ⟨hne, hlast, fun test htest => ?_⟩
    have hexists : ∃ entry ∈ table.entries, test.offset < entry.label.length :=
      ⟨entry, hentry, hlength ▸ hbefore test htest path hpath⟩
    exact ⟨hbelow hexists, hexists⟩
  · intro route offset onEnd cases h
    obtain ⟨n, known, hnode, hsite, -⟩ := Trie.exists_site_of_ne_miss hshort h (by simp)
    obtain ⟨hne, hasc, path, hpath, hlt⟩ := hsite.of_dispatch
    obtain ⟨entry, hentry, -, hlength⟩ := Trie.exists_entry_of_isSome hnode hpath
    have hexists : ∃ entry ∈ table.entries, offset < entry.label.length :=
      ⟨entry, hentry, hlength ▸ hlt⟩
    exact ⟨hne, hasc, hbelow hexists, hexists⟩
  · intro route check next h bound hbound
    obtain ⟨n, known, hnode, hsite, -⟩ := Trie.exists_site_of_ne_miss hshort h (by simp)
    obtain ⟨path, hpath, hle⟩ := hsite.of_guard hbound
    obtain ⟨entry, hentry, -, hlength⟩ := Trie.exists_entry_of_isSome hnode hpath
    exact ⟨entry, hentry, hlength ▸ hle⟩
  · intro α _ fold input offsets h
    obtain ⟨path, hpath, hbegins⟩ := h.exists_isPath
    exact ((hpaths path hpath).1.sublist hbegins.sublist).imp Nat.ne_of_lt

/-- The run in front of a label that goes on is followed by the branch at which a shorter one
ends. -/
theorem synthesis_invariants_abc : ∃ (table : Table Nat) (route : Route) (tests : List CharTest)
    (next : Decision Nat), (∀ entry ∈ table.entries, entry.label.length < limit) ∧
    ((Trie.ofTable table).synthesize true).LeadsTo route (.spell tests next) ∧
    tests = CharTest.consecutive 0 ['a', 'b', 'c'] ∧
    (∃ last, tests.getLast? = some last ∧ ((∃ payload, next = .accept payload) ∨
      ∃ check onEnd cases, next = .guarded check (.dispatch (last.offset + 1) onEnd cases))) ∧
    ∀ test ∈ tests, test.offset + 1 < limit ∧
      ∃ entry ∈ table.entries, test.offset < entry.label.length := by
  let table : Table Nat := ⟨.ordinal, #[⟨"abc", 0⟩, ⟨"abc-d", 1⟩], by decide⟩
  have hshort : ∀ entry ∈ table.entries, entry.label.length < limit := by decide
  have hsynthesize : (Trie.ofTable table).synthesize true =
      .guard (.min 3) (.spell (CharTest.consecutive 0 ['a', 'b', 'c'])
        (.guard (.max 5) (.dispatch 3 (some 0) [
          ('-', .guard (.exact 5) (.dispatch 4 none [('d', .accept 1)]))]))) := by
    decide +kernel
  have hleads : ((Trie.ofTable table).synthesize true).LeadsTo [.pass (.min 3)]
      (.spell (CharTest.consecutive 0 ['a', 'b', 'c'])
        (.guard (.max 5) (.dispatch 3 (some 0) [
          ('-', .guard (.exact 5) (.dispatch 4 none [('d', .accept 1)]))]))) := by
    rw [hsynthesize]
    exact .onward .pass (.here _)
  obtain ⟨-, hspell, -⟩ := synthesis_invariants hshort true
  obtain ⟨-, hlast, htests⟩ := hspell _ _ _ hleads
  exact ⟨table, _, _, _, hshort, hleads, rfl, hlast, htests⟩

end Lexicon
