import Lexicon.Proofs.Trie.Order
import Lexicon.Trie.Lengths
import Mathlib.Order.Bounds.Basic
import Mathlib.Order.Lattice.Nat

/-!
# Lengths below a node

The range analysis of a node adds to the bounds it is started from the least and the greatest
number of characters that complete a label from the node on (`measures_lengths`), where sums stop
at the limit. `Measures S f` says this of any set of lengths and any function on ranges; it is kept
by the four things the analysis does: nothing at a leaf, a step down, a union over siblings, and
the lower bound fixed at a label.

Started at the exact range of the offset of a node, the analysis gives the least and the greatest
length of a label through the node (`exists_lengths_exact`).
-/

namespace Lexicon

open LengthRange (limit)

universe u

variable {V : Type u}

/-- Both bounds are lengths of 64 bits. -/
def LengthRange.IsCounted (r : LengthRange) : Prop :=
  r.min ≤ limit ∧ r.max ≤ limit

/-- `f` adds the least of the lengths in `S` to the lower and the greatest to the upper bound of a
range, where sums stop at the limit. -/
def Measures (S : Set Nat) (f : LengthRange → LengthRange) : Prop :=
  ∃ lo hi, IsLeast S lo ∧ IsGreatest S hi ∧ ∀ r : LengthRange, r.IsCounted →
    f r = ⟨min (r.min + lo) limit, min (r.max + hi) limit⟩

namespace Measures

variable {S T : Set Nat} {f g : LengthRange → LengthRange}

theorem zero : Measures {0} fun r => r := by
  refine ⟨0, 0, isLeast_singleton, isGreatest_singleton, fun r hr => ?_⟩
  rw [Nat.add_zero, Nat.add_zero, min_eq_left hr.1, min_eq_left hr.2]

/-- Two sets of lengths together are measured by the union of the ranges. -/
theorem union (hf : Measures S f) (hg : Measures T g) :
    Measures (S ∪ T) fun r => (f r).union (g r) := by
  obtain ⟨lo, hi, hlo, hhi, hf⟩ := hf
  obtain ⟨lo', hi', hlo', hhi', hg⟩ := hg
  refine ⟨min lo lo', max hi hi', hlo.union hlo', hhi.union hhi', fun r hr => ?_⟩
  dsimp only
  rw [hf r hr, hg r hr, LengthRange.union, LengthRange.mk.injEq]
  -- stopping at the limit and taking the smaller or greater bound commute
  constructor
  · change min (min (r.min + lo) limit) (min (r.min + lo') limit) = _
    omega
  · change max (min (r.max + hi) limit) (min (r.max + hi') limit) = _
    omega

/-- Lengths that are all longer by one are measured one step down. -/
theorem deeper (hf : Measures S f) : Measures (Nat.succ '' S) fun r => f r.deeper := by
  obtain ⟨lo, hi, hlo, hhi, hf⟩ := hf
  refine ⟨lo + 1, hi + 1, ?_, ?_, fun r hr => ?_⟩
  · exact ⟨⟨lo, hlo.1, rfl⟩, by rintro _ ⟨k, hk, rfl⟩; exact Nat.succ_le_succ (hlo.2 hk)⟩
  · exact ⟨⟨hi, hhi.1, rfl⟩, by rintro _ ⟨k, hk, rfl⟩; exact Nat.succ_le_succ (hhi.2 hk)⟩
  · obtain ⟨hmin, hmax⟩ := hr
    have hdeeper : r.deeper = ⟨min (r.min + 1) limit, min (r.max + 1) limit⟩ := by
      simp only [LengthRange.deeper, LengthRange.succ, LengthRange.mk.injEq]
      constructor <;> split <;> omega
    dsimp only
    rw [hf r.deeper (by rw [hdeeper]; exact ⟨min_le_right .., min_le_right ..⟩), hdeeper,
      LengthRange.mk.injEq]
    dsimp only
    omega

/-- Where length zero is among the lengths the lower bound stays. -/
theorem withMin (hf : Measures S f) : Measures ({0} ∪ S) fun r => (f r).withMin r.min := by
  obtain ⟨lo, hi, hlo, hhi, hf⟩ := hf
  refine ⟨0, hi, ⟨.inl rfl, fun _ _ => Nat.zero_le _⟩, ⟨.inr hhi.1, ?_⟩, fun r hr => ?_⟩
  · rintro k (rfl | hk)
    · exact Nat.zero_le _
    · exact hhi.2 hk
  · dsimp only
    rw [hf r hr, LengthRange.withMin, Nat.add_zero, min_eq_left hr.1]

end Measures

namespace Node

/-- The numbers of characters that complete a label from the node on. -/
def wordLengths (n : Node V) : Set Nat :=
  {k | ∃ path, (n.lookup? path).isSome ∧ path.length = k}

/-- A label ends at the node itself or goes on through a child. -/
theorem wordLengths_eq {n : Node V} (h : n.Valid) :
    n.wordLengths = {k | k = 0 ∧ n.isTerminal} ∪
      Nat.succ '' {k | ∃ m ∈ n.children, k ∈ m.wordLengths} := by
  ext k
  constructor
  · rintro ⟨path, hpath, rfl⟩
    cases path with
    | nil => exact .inl ⟨rfl, hpath⟩
    | cons c rest =>
      rw [lookup?_cons] at hpath
      obtain ⟨v, hv⟩ := Option.isSome_iff_exists.1 hpath
      obtain ⟨m, hm, hrest⟩ := Option.bind_eq_some_iff.1 hv
      exact .inr ⟨rest.length, ⟨m, ((child?_eq_some_iff h.ascending).1 hm).1, rest,
        Option.isSome_iff_exists.2 ⟨v, hrest⟩, rfl⟩, rfl⟩
  · rintro (⟨rfl, hterm⟩ | ⟨_, ⟨m, hm, rest, hrest, rfl⟩, rfl⟩)
    · exact ⟨[], hterm, rfl⟩
    · refine ⟨m.char :: rest, ?_, rfl⟩
      rwa [lookup?_cons, child?_char h.ascending hm]

/-- Siblings are measured one after the other. -/
private theorem measures_lengthsAll {ns : List (Node V)}
    (h : ∀ m ∈ ns, Measures m.wordLengths m.lengths) {S : Set Nat}
    {f : LengthRange → LengthRange} (hf : Measures S f) :
    Measures (S ∪ {k | ∃ m ∈ ns, k ∈ m.wordLengths}) fun r => lengthsAll (f r) ns r := by
  induction ns generalizing S f with
  | nil => simpa [lengthsAll] using hf
  | cons m rest ih =>
    have hrest := ih (fun k hk => h k (by simp [hk])) (hf.union (h m (by simp)))
    have hset : S ∪ {k | ∃ n ∈ m :: rest, k ∈ n.wordLengths} =
        S ∪ m.wordLengths ∪ {k | ∃ n ∈ rest, k ∈ n.wordLengths} := by
      ext k
      simp [or_assoc]
    rw [hset]
    exact hrest

/-- The range analysis of a node measures the rests of labels from the node on. -/
theorem measures_lengths {n : Node V} (h : n.Valid) (hterm : n.isLeaf → n.isTerminal) :
    Measures n.wordLengths n.lengths := by
  induction n using Node.induction with
  | step n ih =>
    rw [wordLengths_eq h]
    obtain ⟨id, c, payload, children⟩ := n
    cases children with
    | nil =>
      -- without a label at the leaf the set of lengths would be empty
      have hpayload : payload.isSome := hterm rfl
      simpa [isTerminal, hpayload, lengths] using Measures.zero
    | cons m rest =>
      have hchild : ∀ k ∈ m :: rest, Measures k.wordLengths k.lengths := fun k hk =>
        ih k hk (h.child hk) fun hleaf => h.isTerminal hk hleaf
      have hrest : ∀ k ∈ rest, Measures k.wordLengths k.lengths := fun k hk =>
        hchild k (List.mem_cons_of_mem m hk)
      have hall := (measures_lengthsAll hrest (hchild m (by simp))).deeper
      have hset : {k | ∃ n ∈ m :: rest, k ∈ n.wordLengths} =
          m.wordLengths ∪ {k | ∃ n ∈ rest, k ∈ n.wordLengths} := by
        ext k
        simp
      rw [hset]
      cases payload with
      | none => simpa [isTerminal, lengths] using hall
      | some v => simpa [isTerminal, lengths] using hall.withMin

/-- Some label goes through every node that is no bare leaf. -/
theorem exists_lookup?_isSome {n : Node V} (h : n.Valid) (hterm : n.isLeaf → n.isTerminal) :
    ∃ path, (n.lookup? path).isSome := by
  obtain ⟨lo, -, hlo, -⟩ := measures_lengths h hterm
  obtain ⟨path, hpath, -⟩ := hlo.1
  exact ⟨path, hpath⟩

/-- From a node that is no leaf a label goes on. -/
theorem Valid.exists_longer {n : Node V} (h : n.Valid) (hleaf : ¬ n.isLeaf) :
    ∃ path, (n.lookup? path).isSome ∧ 0 < path.length := by
  obtain ⟨m, hm⟩ := List.exists_mem_of_ne_nil n.children (by simpa [isLeaf] using hleaf)
  obtain ⟨path, hpath⟩ := exists_lookup?_isSome (h.child hm) (h.isTerminal hm)
  refine ⟨m.char :: path, ?_, Nat.succ_pos _⟩
  rwa [lookup?_cons, child?_char h.ascending hm]

/-- The labels through a node at offset `index` are shorter than the limit. -/
def WithinLimit (n : Node V) (index : Nat) : Prop :=
  ∀ path, (n.lookup? path).isSome → index + path.length < limit

/-- The analysis started at the offset of a node gives the exact bounds on the lengths of the labels
through the node, where these stay below the limit. -/
theorem exists_lengths_exact {n : Node V} (h : n.Valid) (hterm : n.isLeaf → n.isTerminal)
    {index : Nat} (hshort : n.WithinLimit index) :
    ∃ lo hi, IsLeast n.wordLengths lo ∧ IsGreatest n.wordLengths hi ∧
      n.lengths (.exact index) = ⟨index + lo, index + hi⟩ ∧ index + hi < limit := by
  obtain ⟨lo, hi, hlo, hhi, heq⟩ := measures_lengths h hterm
  obtain ⟨longest, hlongest, hlen⟩ := hhi.1
  have hbound : index + hi < limit := hlen ▸ hshort longest hlongest
  have hle : lo ≤ hi := hlo.2 hhi.1
  refine ⟨lo, hi, hlo, hhi, ?_, hbound⟩
  rw [heq (.exact index) ⟨by change index ≤ _; omega, by change index ≤ _; omega⟩]
  change LengthRange.mk (min (index + lo) limit) (min (index + hi) limit) = _
  rw [min_eq_left (by omega), min_eq_left (by omega)]

/-- A label ends at a node from which no character is needed to complete one. -/
theorem isTerminal_of_zero_mem_wordLengths {n : Node V} (h : 0 ∈ n.wordLengths) :
    n.isTerminal := by
  obtain ⟨path, hpath, hlen⟩ := h
  obtain rfl := List.eq_nil_of_length_eq_zero hlen
  exact hpath

end Node

end Lexicon
