import Lexicon.Decision.Preorder

/-!
# Statistics of a decision

How many nodes of each kind a decision has, and how much they hold.
-/

namespace Lexicon

universe u

/-- Counts over the nodes of a decision. -/
structure Stats where
  /-- Length guards. -/
  lengthChecks : Nat
  /-- Runs of character tests. -/
  condensed : Nat
  /-- Character tests in all runs together. -/
  condensedTerms : Nat
  /-- Branches. -/
  dispatches : Nat
  /-- Cases of all branches together. -/
  dispatchCases : Nat
  /-- Branches that have a payload for an input that ends there. -/
  earlyReturns : Nat
  /-- Payloads at the end of a path. -/
  terminalReturns : Nat
  /-- Misses at the end of a path; those of failed tests are not counted. -/
  misses : Nat
deriving DecidableEq

namespace Stats

/-- Nothing counted. -/
def zero : Stats := ⟨0, 0, 0, 0, 0, 0, 0, 0⟩

/-- The sums of two counts. -/
def add (s t : Stats) : Stats where
  lengthChecks := s.lengthChecks + t.lengthChecks
  condensed := s.condensed + t.condensed
  condensedTerms := s.condensedTerms + t.condensedTerms
  dispatches := s.dispatches + t.dispatches
  dispatchCases := s.dispatchCases + t.dispatchCases
  earlyReturns := s.earlyReturns + t.earlyReturns
  terminalReturns := s.terminalReturns + t.terminalReturns
  misses := s.misses + t.misses

/-- The count of two things together is the sum of the counts. -/
structure Additive (count : Stats → Nat) : Prop where
  zero : count .zero = 0
  add : ∀ s t, count (s.add t) = count s + count t

theorem Additive.sum {count count' : Stats → Nat} (h : Additive count) (h' : Additive count') :
    Additive fun s => count s + count' s where
  zero := by rw [h.zero, h'.zero]
  add s t := by rw [h.add, h'.add]; omega

end Stats

/-- What a single node counts for. -/
def Head.stats {V : Type u} : Head V → Stats
  | guard _ => { Stats.zero with lengthChecks := 1 }
  | spell tests => { Stats.zero with condensed := 1, condensedTerms := tests.length }
  | dispatch _ onEnd chars =>
    { Stats.zero with
      dispatches := 1
      dispatchCases := chars.length
      earlyReturns := if onEnd.isSome then 1 else 0 }
  | accept _ => { Stats.zero with terminalReturns := 1 }
  | miss => { Stats.zero with misses := 1 }

namespace Decision

variable {V : Type u}

/-- The counts over all nodes. -/
def stats (d : Decision V) : Stats :=
  d.heads.foldl (fun s head => s.add head.stats) .zero

/-- Whether some node reads a character of the input. -/
def readsInput (d : Decision V) : Bool :=
  0 < d.stats.dispatches + d.stats.condensed

/-- Whether some node asks for the length of the input before it is read. -/
def readsLength (d : Decision V) : Bool :=
  0 < d.stats.lengthChecks + d.stats.earlyReturns

/-! ### Counting node by node -/

/-- A count that adds up can be taken node by node. -/
theorem count_stats {count : Stats → Nat} (h : Stats.Additive count) (d : Decision V) :
    count d.stats = d.heads.foldl (fun n head => n + count head.stats) 0 := by
  rw [← h.zero]
  exact (List.foldl_hom count fun s head => (h.add s head.stats).symm).symm

/-- A count that adds up is positive if some node counts for something. -/
private theorem count_stats_pos_iff {count : Stats → Nat} (h : Stats.Additive count)
    (d : Decision V) : 0 < count d.stats ↔ ∃ head ∈ d.heads, 0 < count head.stats := by
  rw [count_stats h, ← List.foldl_map, ← List.sum_eq_foldl_nat, List.sum_pos_iff_exists_pos_nat]
  constructor
  · rintro ⟨_, hmem, hpos⟩
    obtain ⟨head, hhead, rfl⟩ := List.mem_map.1 hmem
    exact ⟨head, hhead, hpos⟩
  · rintro ⟨head, hhead, hpos⟩
    exact ⟨_, List.mem_map.2 ⟨head, hhead, rfl⟩, hpos⟩

/-! ### What is asked of the input -/

/-- Characters of the input are read at runs and branches. -/
theorem readsInput_iff (d : Decision V) :
    d.readsInput ↔ ∃ head ∈ d.heads, 0 < head.stats.dispatches + head.stats.condensed := by
  rw [readsInput, decide_eq_true_iff]
  exact count_stats_pos_iff (.sum ⟨rfl, fun _ _ => rfl⟩ ⟨rfl, fun _ _ => rfl⟩) d

/-- The length is asked for at guards, and at branches where an input may end. -/
theorem readsLength_iff (d : Decision V) :
    d.readsLength ↔ ∃ head ∈ d.heads, 0 < head.stats.lengthChecks + head.stats.earlyReturns := by
  rw [readsLength, decide_eq_true_iff]
  exact count_stats_pos_iff (.sum ⟨rfl, fun _ _ => rfl⟩ ⟨rfl, fun _ _ => rfl⟩) d

theorem readsInput_guard (check : LengthCheck) (next : Decision V) :
    (guard check next).readsInput ↔ next.readsInput := by
  simp [readsInput_iff, Head.stats, Stats.zero]

@[simp] theorem readsInput_spell (tests : List CharTest) (next : Decision V) :
    (spell tests next).readsInput := by
  simp [readsInput_iff, Head.stats, Stats.zero]

@[simp] theorem readsInput_dispatch (offset : Nat) (onEnd : Option V)
    (cases : List (Char × Decision V)) : (dispatch offset onEnd cases).readsInput := by
  simp [readsInput_iff, Head.stats, Stats.zero]

theorem not_readsInput_accept (payload : V) : ¬ (accept payload).readsInput := by
  simp [readsInput_iff, Head.stats, Stats.zero]

theorem not_readsInput_miss : ¬ (miss : Decision V).readsInput := by
  simp [readsInput_iff, Head.stats, Stats.zero]

@[simp] theorem readsLength_guard (check : LengthCheck) (next : Decision V) :
    (guard check next).readsLength := by
  simp [readsLength_iff, Head.stats, Stats.zero]

theorem readsLength_spell (tests : List CharTest) (next : Decision V) :
    (spell tests next).readsLength ↔ next.readsLength := by
  simp [readsLength_iff, Head.stats, Stats.zero]

/-- A branch asks for the length if a payload ends there, or if a case does. -/
theorem readsLength_dispatch (offset : Nat) (onEnd : Option V) (cases : List (Char × Decision V)) :
    (dispatch offset onEnd cases).readsLength ↔
      onEnd.isSome ∨ ∃ entry ∈ cases, entry.2.readsLength := by
  have hhead : 0 < (Head.dispatch offset onEnd (cases.map Prod.fst)).stats.lengthChecks +
      (Head.dispatch offset onEnd (cases.map Prod.fst)).stats.earlyReturns ↔ onEnd.isSome := by
    cases onEnd <;> simp [Head.stats, Stats.zero]
  simp only [readsLength_iff, heads_dispatch, List.mem_cons, exists_eq_or_imp, hhead,
    List.mem_flatMap]
  refine or_congr Iff.rfl ⟨?_, ?_⟩
  · rintro ⟨head, ⟨entry, hentry, hmem⟩, hpos⟩
    exact ⟨entry, hentry, head, hmem, hpos⟩
  · rintro ⟨entry, hentry, head, hmem, hpos⟩
    exact ⟨head, ⟨entry, hentry, hmem⟩, hpos⟩

theorem not_readsLength_accept (payload : V) : ¬ (accept payload).readsLength := by
  simp [readsLength_iff, Head.stats, Stats.zero]

theorem not_readsLength_miss : ¬ (miss : Decision V).readsLength := by
  simp [readsLength_iff, Head.stats, Stats.zero]

end Decision

end Lexicon
