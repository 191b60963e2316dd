import Lexicon.Proofs.Trie.Contents
import Lexicon.Proofs.Trie.Lengths

/-!
# Range analysis is exact from every range

Started from whatever range, the analysis of a node adds to its bounds the least and the greatest
number of characters with which labels go on behind the node (`lengths_exact`).

A label at a node with children fixes the lower bound for that node. It makes no difference whether
this is done where the children come together, or whether the bound is carried down to them and
replaced by labels on the way (`Node.pinnedLengths_eq`).
-/

namespace Lexicon

open LengthRange (limit)

universe u

variable {V : Type u}

/-- The numbers of characters with which the labels that begin with a text go on behind it. -/
def Table.restLengths (table : Table V) (path : List Char) : Set Nat :=
  {k | ∃ entry ∈ table.entries, ∃ rest, entry.label.toList = path ++ rest ∧ rest.length = k}

/-- The labels from a node on are the rests of the labels that lead to it. -/
theorem Trie.wordLengths_eq_restLengths {table : Table V} {path : List Char} {n : Node V}
    (h : (ofTable table).node? path = some n) : n.wordLengths = table.restLengths path := by
  ext k
  constructor
  · rintro ⟨rest, hrest, rfl⟩
    obtain ⟨entry, hentry, hlabel, -⟩ := exists_entry_of_isSome h hrest
    exact ⟨entry, hentry, rest, hlabel, rfl⟩
  · rintro ⟨entry, hentry, rest, hlabel, rfl⟩
    have hlookup := (lookup?_eq_some_iff h).2 ⟨entry, hentry, hlabel, rfl⟩
    exact ⟨rest, Option.isSome_iff_exists.2 ⟨_, hlookup⟩, rfl⟩

namespace Node

/-! ### A bound carried down -/

/-- A label at the node itself is the shortest one through it. -/
theorem min_lengths_of_isTerminal {n : Node V} (h : n.isTerminal) (r : LengthRange) :
    (n.lengths r).min = r.min := by
  obtain ⟨id, c, payload, children⟩ := n
  have hpayload : payload.isSome = true := h
  cases children with
  | nil => rfl
  | cons m rest => rw [lengths, if_pos hpayload, LengthRange.withMin]

/-- Upper bounds do not depend on the bounds carried down. -/
private theorem max_pinnedLengthsAll {pin : Option Nat} {ns : List (Node V)} {r : LengthRange}
    (h : ∀ m ∈ ns, (m.pinnedLengths pin r).max = (m.lengths r).max) {known known' : LengthRange}
    (hknown : known.max = known'.max) :
    (pinnedLengthsAll pin known ns r).max = (lengthsAll known' ns r).max := by
  induction ns generalizing known known' with
  | nil => exact hknown
  | cons m rest ih =>
    refine ih (fun k hk => h k (List.mem_cons_of_mem m hk)) ?_
    rw [LengthRange.union, LengthRange.union, hknown, h m List.mem_cons_self]

/-- Siblings below no label are analysed alike. -/
private theorem pinnedLengthsAll_none {ns : List (Node V)} {r : LengthRange}
    (h : ∀ m ∈ ns, m.pinnedLengths none r = m.lengths r) (known : LengthRange) :
    pinnedLengthsAll none known ns r = lengthsAll known ns r := by
  induction ns generalizing known with
  | nil => rfl
  | cons m rest ih =>
    rw [pinnedLengthsAll, lengthsAll, h m List.mem_cons_self,
      ih fun k hk => h k (List.mem_cons_of_mem m hk)]

/-- Where no bound is carried down, a label at the node fixes the bound that it has anyway. -/
private theorem pinned_none (n : Node V) (r : LengthRange) :
    (if n.isLeaf then r
      else ⟨if n.isTerminal then r.min else (none : Option Nat).getD (n.lengths r).min,
        (n.lengths r).max⟩) = n.lengths r := by
  split
  · rename_i hleaf
    rw [lengths_of_isLeaf hleaf]
  · split
    · rename_i hterm
      rw [← min_lengths_of_isTerminal hterm r]
    · rfl

/-- **A bound carried down ends where a label is.** A leaf ignores it, a label at a node with
children replaces it, and any other node has it as its lower bound. The upper bound is the same
throughout. -/
theorem pinnedLengths_eq (n : Node V) (pin : Option Nat) (r : LengthRange) :
    n.pinnedLengths pin r =
      if n.isLeaf then r
      else ⟨if n.isTerminal then r.min else pin.getD (n.lengths r).min, (n.lengths r).max⟩ := by
  induction n using Node.induction generalizing pin r with
  | step n ih =>
    obtain ⟨id, c, payload, children⟩ := n
    cases children with
    | nil => rfl
    | cons m rest =>
      have hmax : ∀ k ∈ m :: rest, ∀ pin r, (k.pinnedLengths pin r).max = (k.lengths r).max := by
        intro k hk pin r
        rw [ih k hk]
        split
        · rename_i hleaf
          rw [lengths_of_isLeaf hleaf]
        · rfl
      have hnone : ∀ k ∈ m :: rest, ∀ r, k.pinnedLengths none r = k.lengths r := by
        intro k hk r
        rw [ih k hk, pinned_none]
      have hmaxAll : ∀ pin r, (pinnedLengthsAll pin (m.pinnedLengths pin r) rest r).max =
          (lengthsAll (m.lengths r) rest r).max := fun pin r =>
        max_pinnedLengthsAll (fun k hk => hmax k (List.mem_cons_of_mem m hk) pin r)
          (hmax m List.mem_cons_self pin r)
      rw [if_neg (by simp [isLeaf]), pinnedLengths, lengths]
      cases payload with
      | some v => simp [isTerminal, LengthRange.withMin, hmaxAll]
      | none =>
        cases pin with
        | some length => simp [isTerminal, LengthRange.withMin, hmaxAll]
        | none =>
          have hrest : ∀ k ∈ rest, k.pinnedLengths none r.deeper = k.lengths r.deeper :=
            fun k hk => hnone k (List.mem_cons_of_mem m hk) _
          simp [isTerminal, hnone m List.mem_cons_self, pinnedLengthsAll_none hrest]

/-- With no bound from above the two analyses are the same. -/
theorem pinnedLengths_none (n : Node V) (r : LengthRange) :
    n.pinnedLengths none r = n.lengths r := by
  rw [pinnedLengths_eq, pinned_none]

/-! ### Siblings -/

/-- The lower bound of an extended range is the least of those that came together in it. -/
private theorem isLeast_min_lengthsAll {ns : List (Node V)} {r known : LengthRange} {S : Set Nat}
    (h : IsLeast S known.min) :
    IsLeast (S ∪ {k | ∃ m ∈ ns, (m.lengths r).min = k}) (lengthsAll known ns r).min := by
  induction ns generalizing known S with
  | nil => simpa [lengthsAll] using h
  | cons m rest ih =>
    have hset : S ∪ {k | ∃ n ∈ m :: rest, (n.lengths r).min = k} =
        S ∪ {(m.lengths r).min} ∪ {k | ∃ n ∈ rest, (n.lengths r).min = k} := by
      ext k
      simp only [Set.mem_union, Set.mem_singleton_iff, Set.mem_ofPred_eq, List.exists_mem_cons_iff,
        or_assoc, @eq_comm _ k]
    rw [hset]
    exact ih (h.union isLeast_singleton)

/-- Where no label ends and some go on, the lower bound is the least of the children's own. -/
theorem isLeast_min_lengths {n : Node V} (hterm : ¬ n.isTerminal) (hleaf : ¬ n.isLeaf)
    (r : LengthRange) :
    IsLeast {k | ∃ m ∈ n.children, (m.lengths r.deeper).min = k} (n.lengths r).min := by
  obtain ⟨id, c, payload, children⟩ := n
  have hpayload : ¬ payload.isSome = true := hterm
  cases children with
  | nil => exact absurd rfl hleaf
  | cons m rest =>
    have hset : {k | ∃ n ∈ m :: rest, (n.lengths r.deeper).min = k} =
        {(m.lengths r.deeper).min} ∪ {k | ∃ n ∈ rest, (n.lengths r.deeper).min = k} := by
      ext k
      simp [eq_comm]
    rw [lengths, if_neg hpayload, hset]
    exact isLeast_min_lengthsAll isLeast_singleton

end Node

/-- **Range analysis is exact from every range.** At a node of a trie with labels it adds to the
bounds of the range it is started from the least and the greatest number of characters with which
labels go on behind the node; sums stop at the limit, and the least number is zero where a label ends
at the node. To carry the bound that a label fixes down to the nodes below gives the same.

Such a bound stays with the node and those below it: where no label ends, the lower bound is the
least of those that the children have, each by itself. -/
theorem lengths_exact {table : Table V} (hne : table.entries ≠ #[]) {path : List Char} {n : Node V}
    (h : (Trie.ofTable table).node? path = some n) :
    (∃ least greatest, IsLeast (table.restLengths path) least ∧
      IsGreatest (table.restLengths path) greatest ∧ (n.isTerminal → least = 0) ∧
      ∀ r : LengthRange, r.IsCounted →
        n.lengths r = ⟨min (r.min + least) limit, min (r.max + greatest) limit⟩) ∧
    (∀ r, n.pinnedLengths none r = n.lengths r) ∧
    ∀ r, ¬ n.isTerminal → ¬ n.isLeaf →
      IsLeast {k | ∃ m ∈ n.children, (m.lengths r.deeper).min = k} (n.lengths r).min := by
  refine ⟨?_, n.pinnedLengths_none, fun r hterm hleaf => Node.isLeast_min_lengths hterm hleaf r⟩
  obtain ⟨least, greatest, hleast, hgreatest, hlengths⟩ :=
    Node.measures_lengths (Trie.valid_of_node? h) (Trie.isTerminal_of_node? hne h)
  rw [Trie.wordLengths_eq_restLengths h] at hleast hgreatest
  refine ⟨least, greatest, hleast, hgreatest, fun hterm => ?_, hlengths⟩
  obtain ⟨payload, hpayload⟩ := Option.isSome_iff_exists.1 hterm
  obtain ⟨entry, hentry, hlabel, -⟩ := (Trie.payload_eq_some_iff h).1 hpayload
  have hzero : 0 ∈ table.restLengths path := ⟨entry, hentry, [], by rw [hlabel, List.append_nil], rfl⟩
  exact Nat.le_zero.1 (hleast.2 hzero)

/-- Behind the common beginning of three labels, one of which ends on the way to another, the
analysis is right also for a range that is upside down and stands at the limit. -/
theorem lengths_exact_fo : ∃ (table : Table Nat) (n : Node Nat),
    table.entries = #[⟨"foobar", 0⟩, ⟨"fob", 1⟩, ⟨"foo", 2⟩] ∧ table.entries ≠ #[] ∧
    (Trie.ofTable table).node? ['f', 'o'] = some n ∧ (⟨limit, 3⟩ : LengthRange).IsCounted ∧
    n.lengths ⟨limit, 3⟩ = ⟨limit, 7⟩ := by
  let table : Table Nat := ⟨.ordinal, #[⟨"foobar", 0⟩, ⟨"fob", 1⟩, ⟨"foo", 2⟩], by decide⟩
  have hne : table.entries ≠ #[] := by simp [table]
  have hsome : ((Trie.ofTable table).node? ['f', 'o']).isSome := by decide +kernel
  obtain ⟨n, hn⟩ := Option.isSome_iff_exists.1 hsome
  have hcounted : (⟨limit, 3⟩ : LengthRange).IsCounted := ⟨Nat.le_refl _, by decide⟩
  obtain ⟨⟨least, greatest, hleast, hgreatest, -, hlengths⟩, -⟩ := lengths_exact hne hn
  have hfour : IsGreatest (table.restLengths ['f', 'o']) 4 := by
    refine ⟨⟨⟨"foobar", 0⟩, by simp [table], ['o', 'b', 'a', 'r'], by decide, rfl⟩, ?_⟩
    rintro k ⟨entry, hentry, rest, hlabel, rfl⟩
    have hlength : entry.label.toList.length ≤ 6 := by
      simp only [table, List.mem_toArray, List.mem_cons, List.not_mem_nil, or_false] at hentry
      rcases hentry with rfl | rfl | rfl <;> decide
    rw [hlabel, List.length_append, List.length_cons] at hlength
    simp at hlength
    omega
  obtain rfl := hgreatest.unique hfour
  refine ⟨table, n, rfl, hne, hn, hcounted, ?_⟩
  rw [hlengths _ hcounted, min_eq_right (Nat.le_add_right ..)]
  rfl

end Lexicon
