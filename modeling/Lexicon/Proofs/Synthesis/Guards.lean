import Lexicon.Proofs.Trie.Chain
import Lexicon.Proofs.Trie.Lengths
import Lexicon.Synthesis

/-!
# What the guards of a synthesis establish

`Node.Reached n index previous length` is what holds of an input of a length when its evaluation has
come to the decision of node `n`: the node stands at offset `index` of the input, and `previous`,
what the guards and branches on the way have established, allows the length.

The main facts say of each guard which lengths it admits, also where it was left out because it
would have checked nothing new, and that the nodes behind it are reached again in this sense: behind
a run (`Reached.admits_run`, `Reached.stop`), at a leaf (`Reached.admits_leaf`) and at a branch
(`Reached.admits_branch`, `Reached.child`).
-/

namespace Lexicon

open LengthCheck (narrowing admitsAll admits_narrowing_iff_allows)
open LengthRange (limit allows_exact allows_atLeast)

universe u

variable {V : Type u}

namespace Node

theorem WithinLimit.child {n m : Node V} {index : Nat} (h : n.WithinLimit index)
    (hasc : Ascending n.children) (hm : m ∈ n.children) : m.WithinLimit (index + 1) := by
  intro path hpath
  have := h (m.char :: path) (by rwa [lookup?_cons, child?_char hasc hm])
  rw [List.length_cons] at this
  omega

theorem WithinLimit.chain {n stop : Node V} {cs : List Char} {index : Nat}
    (h : n.WithinLimit index) (hchain : Chain n cs stop) : stop.WithinLimit (index + cs.length) := by
  intro path hpath
  have := h (cs ++ path) (by rwa [hchain.lookup?_append])
  rw [List.length_append] at this
  omega

/-- The offset of a node through which a label goes is below the limit. -/
theorem WithinLimit.index_lt {n : Node V} {index : Nat} (h : n.WithinLimit index) (hn : n.Valid)
    (hterm : n.isLeaf → n.isTerminal) : index < limit := by
  obtain ⟨path, hpath⟩ := exists_lookup?_isSome hn hterm
  exact Nat.lt_of_le_of_lt (Nat.le_add_right ..) (h path hpath)

theorem chain_of_firstRun?_eq_some {condense : Bool} {n : Node V} {run : Run V}
    (h : n.firstRun? condense = some run) : Chain n run.chars run.stop ∧ run.chars ≠ [] := by
  cases condense with
  | false => simp [firstRun?] at h
  | true => exact chain_of_run?_eq_some h

/-- An input of the given length may come to the node, at offset `index`, where `previous` is what
is known of its length. -/
structure Reached (n : Node V) (index : Nat) (previous : LengthRange) (length : Nat) : Prop where
  valid : n.Valid
  withinLimit : n.WithinLimit index
  index_le : index ≤ length
  min_lt : previous.min < limit
  allows : previous.Allows length

namespace Reached

variable {condense : Bool} {n m : Node V} {index length : Nat} {previous : LengthRange}
  {run : Run V}

/-- The end of a run lies below the limit. -/
theorem run_lt (h : n.Reached index previous length) (hrun : n.firstRun? condense = some run) :
    index + run.length < limit := by
  obtain ⟨hchain, hne⟩ := chain_of_firstRun?_eq_some hrun
  exact (h.withinLimit.chain hchain).index_lt (hchain.valid h.valid)
    (hchain.isTerminal_of_isLeaf h.valid hne)

/-- In front of a run that completes a label stands the length of that label. -/
theorem admits_run_endsAtLeaf (h : n.Reached index previous length)
    (hrun : n.firstRun? condense = some run) :
    admitsAll (narrowing previous (.exact (index + run.length))) length ↔
      length = index + run.length := by
  have hlt := h.run_lt hrun
  rw [admits_narrowing_iff_allows h.allows hlt (.inr hlt), allows_exact hlt]

/-- In front of any other run stands the length up to which it reads. -/
theorem admits_run (h : n.Reached index previous length)
    (hrun : n.firstRun? condense = some run) :
    admitsAll (narrowing previous (previous.atLeast (index + run.length))) length ↔
      index + run.length ≤ length := by
  have hlt : (previous.atLeast (index + run.length)).min < limit :=
    Nat.max_lt.2 ⟨h.min_lt, h.run_lt hrun⟩
  rw [admits_narrowing_iff_allows h.allows hlt (.inl rfl), allows_atLeast]
  exact and_iff_right h.allows

theorem stop (h : n.Reached index previous length) (hrun : n.firstRun? condense = some run)
    (hle : index + run.length ≤ length) :
    run.stop.Reached (index + run.length) (previous.atLeast (index + run.length)) length where
  valid := (chain_of_firstRun?_eq_some hrun).1.valid h.valid
  withinLimit := h.withinLimit.chain (chain_of_firstRun?_eq_some hrun).1
  index_le := hle
  min_lt := Nat.max_lt.2 ⟨h.min_lt, h.run_lt hrun⟩
  allows := allows_atLeast.2 ⟨h.allows, hle⟩

/-- In front of the payload at a leaf stands the length of its label. -/
theorem admits_leaf (h : n.Reached index previous length) (hleaf : n.isLeaf)
    (hterm : n.isTerminal) :
    admitsAll (narrowing previous (n.lengths (.exact index))) length ↔ length = index := by
  have hlt : index < limit := h.withinLimit.index_lt h.valid fun _ => hterm
  rw [lengths_of_isLeaf hleaf, admits_narrowing_iff_allows h.allows hlt (.inr hlt),
    allows_exact hlt]

/-- In front of a branch stand the lengths of the shortest and the longest label through it. -/
theorem admits_branch (h : n.Reached index previous length) (hleaf : ¬ n.isLeaf) :
    ∃ lo hi, IsLeast n.wordLengths lo ∧ IsGreatest n.wordLengths hi ∧
      n.lengths (.exact index) = ⟨index + lo, index + hi⟩ ∧ index + hi < limit ∧
      (admitsAll (narrowing previous (n.lengths (.exact index))) length ↔
        index + lo ≤ length ∧ length ≤ index + hi) := by
  obtain ⟨lo, hi, hlo, hhi, hrange, hlt⟩ :=
    exists_lengths_exact h.valid (fun hl => absurd hl hleaf) h.withinLimit
  have hle : lo ≤ hi := hlo.2 hhi.1
  refine ⟨lo, hi, hlo, hhi, hrange, hlt, ?_⟩
  rw [hrange, admits_narrowing_iff_allows h.allows (by change index + lo < limit; omega) (.inr hlt)]
  simp only [LengthRange.Allows]
  omega

/-- A case is reached by the inputs that its branch admits and that do not end there. -/
theorem child (h : n.Reached index previous length) (hm : m ∈ n.children)
    (hadmits : admitsAll (narrowing previous (n.lengths (.exact index))) length)
    (hne : length ≠ index) :
    m.Reached (index + 1) ((n.lengths (.exact index)).atLeast (index + 1)) length := by
  have hleaf : ¬ n.isLeaf := fun hl => by simp [List.isEmpty_iff.1 hl] at hm
  obtain ⟨lo, hi, hlo, hhi, hrange, hlt, hiff⟩ := h.admits_branch hleaf
  have hbounds := hiff.1 hadmits
  have hwithin : m.WithinLimit (index + 1) := h.withinLimit.child h.valid.ascending hm
  have hindex := h.index_le
  have hindex_lt := hwithin.index_lt (h.valid.child hm) (h.valid.isTerminal hm)
  have hle : lo ≤ hi := hlo.2 hhi.1
  -- the range of the branch lies below the limit, so its bounds mean what they say
  refine ⟨h.valid.child hm, hwithin, by omega, ?_, ?_⟩
  · rw [hrange]
    exact Nat.max_lt.2 ⟨by change index + lo < limit; omega, hindex_lt⟩
  · rw [hrange, allows_atLeast]
    exact ⟨⟨hbounds.1, .inl hbounds.2⟩, by omega⟩

end Reached

end Node

end Lexicon
