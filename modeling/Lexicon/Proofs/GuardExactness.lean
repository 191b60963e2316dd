import Lexicon.Proofs.Synthesis.Sites

/-!
# Length guards are exact

On the way to a node of a synthesized decision the guards and branches leave exactly the lengths
that the labels through the node need, and no guard is there for nothing (`guards_exact`).
-/

namespace Lexicon

open LengthRange (limit)

universe u

variable {V : Type u}

/-- The lengths of the labels that begin with a text. -/
def Table.lengthsFrom (table : Table V) (path : List Char) : Set Nat :=
  {length | ∃ entry ∈ table.entries, path <+: entry.label.toList ∧ entry.label.length = length}

namespace Trie

variable {table : Table V} {path : List Char} {n : Node V}

/-- The labels that begin with a text are those through the node to which it leads. -/
theorem mem_lengthsFrom_iff (h : (ofTable table).node? path = some n) {length : Nat} :
    length ∈ table.lengthsFrom path ↔
      ∃ rest, (n.lookup? rest).isSome ∧ length = path.length + rest.length := by
  constructor
  · rintro ⟨entry, hentry, ⟨rest, hrest⟩, rfl⟩
    have hlookup := (lookup?_eq_some_iff h).2 ⟨entry, hentry, hrest.symm, rfl⟩
    refine ⟨rest, Option.isSome_iff_exists.2 ⟨_, hlookup⟩, ?_⟩
    rw [← String.length_toList, ← hrest, List.length_append]
  · rintro ⟨rest, hrest, rfl⟩
    obtain ⟨entry, hentry, hlabel, hlength⟩ := exists_entry_of_isSome h hrest
    exact ⟨entry, hentry, ⟨rest, hlabel.symm⟩, hlength⟩

/-- The range analysis of an open node gives the bounds of the labels that begin with the text that
leads to it. -/
theorem exists_isLeast_isGreatest {known : LengthRange}
    (h : (ofTable table).node? path = some n) (hopen : n.Open path.length known) :
    ∃ shortest longest, IsLeast (table.lengthsFrom path) shortest ∧
      IsGreatest (table.lengthsFrom path) longest ∧ longest < limit ∧
      n.lengths (.exact path.length) = ⟨shortest, longest⟩ := by
  obtain ⟨shortest, longest, hshortest, hlongest, hrange, hbetween⟩ := hopen.exists_labels
  refine ⟨_, _, ⟨?_, ?_⟩, ⟨?_, ?_⟩, hopen.withinLimit longest hlongest, hrange⟩
  · exact (mem_lengthsFrom_iff h).2 ⟨shortest, hshortest, rfl⟩
  · intro length hlength
    obtain ⟨rest, hrest, rfl⟩ := (mem_lengthsFrom_iff h).1 hlength
    exact Nat.add_le_add_left (hbetween rest hrest).1 _
  · exact (mem_lengthsFrom_iff h).2 ⟨longest, hlongest, rfl⟩
  · intro length hlength
    obtain ⟨rest, hrest, rfl⟩ := (mem_lengthsFrom_iff h).1 hlength
    exact Nat.add_le_add_left (hbetween rest hrest).2 _

end Trie

/-- **Length guards are exact and never redundant.** The lengths that all guards and branches on the
way to a node leave are

* at a branch, which stands for a node of the trie, those from the shortest to the longest label
  through that node,
* at a payload, the length of its label alone,
* at a guard, some that the guard rejects and some that it admits; what it guards is no guard. -/
theorem guards_exact {table : Table V} (hshort : ∀ entry ∈ table.entries, entry.label.length < limit)
    {condense : Bool} {route : Route} {part : Decision V}
    (h : ((Trie.ofTable table).synthesize condense).LeadsTo route part) :
    (∀ offset onEnd cases, part = .dispatch offset onEnd cases →
      (∃ n, (Trie.ofTable table).node? route.chars = some n ∧ offset = route.chars.length ∧
        onEnd = n.payload ∧ cases.map Prod.fst = n.children.map Node.char) ∧
      ∃ shortest longest, IsLeast (table.lengthsFrom route.chars) shortest ∧
        IsGreatest (table.lengthsFrom route.chars) longest ∧
        route.lengths = Set.Icc shortest longest) ∧
    (∀ payload, part = .accept payload → ∃ entry ∈ table.entries,
      entry.label.toList = route.chars ∧ entry.payload = payload ∧
        route.lengths = {entry.label.length}) ∧
    ∀ check next, part = .guard check next →
      (∃ length ∈ route.lengths, length ≤ limit ∧ ¬ check.admits length) ∧
      (∃ length ∈ route.lengths, length ≤ limit ∧ check.admits length) ∧
      ∀ check' next', next ≠ .guard check' next' := by
  rcases Trie.exists_site hshort h with ⟨-, rfl⟩ | ⟨n, known, hnode, hsite, hallows⟩
  · simp
  refine ⟨?_, ?_, ?_⟩
  · rintro offset onEnd cases rfl
    obtain ⟨-, hoffset, hpayload, rfl, hchars⟩ := hsite.dispatch_inv
    obtain ⟨shortest, longest, hshortest, hlongest, hlt, hrange⟩ :=
      Trie.exists_isLeast_isGreatest hnode hsite.isOpen
    refine ⟨⟨n, hnode, hoffset, hpayload, hchars⟩, shortest, longest, hshortest, hlongest, ?_⟩
    ext length
    rw [← hallows, hrange, Set.mem_Icc]
    exact and_congr_right fun _ => or_iff_left (Nat.not_le.2 hlt)
  · rintro payload rfl
    obtain ⟨-, hpayload, rfl⟩ := hsite.accept_inv
    obtain ⟨entry, hentry, hlabel, rfl⟩ := (Trie.payload_eq_some_iff hnode).1 hpayload
    have hlt : route.chars.length < limit := hsite.isOpen.min_lt
    refine ⟨entry, hentry, hlabel, rfl, ?_⟩
    ext length
    rw [← hallows, LengthRange.allows_exact hlt, Set.mem_singleton_iff, ← String.length_toList,
      hlabel]
  · rintro check next rfl
    rcases hsite with ⟨-, hcheck, hwithin, -, -, hbehind⟩ | ⟨-, hbehind⟩
    · refine ⟨?_, ?_, ?_⟩
      · obtain ⟨length, hle, hknown, hrejected⟩ := hwithin.exists_rejected hcheck
        exact ⟨length, (hallows length).1 hknown, hle, hrejected⟩
      · obtain ⟨length, hle, hknown, hadmitted⟩ := hwithin.exists_admitted hcheck
        exact ⟨length, (hallows length).1 hknown, hle, hadmitted⟩
      · rintro check' next' rfl
        cases hbehind
    · cases hbehind

/-- In the decision for three labels the case of `a`, which two of them begin with, has a guard of
its own, since the third is shorter. -/
theorem guards_exact_ab : ∃ (table : Table Nat) (route : Route) (next : Decision Nat),
    (∀ entry ∈ table.entries, entry.label.length < limit) ∧
    ((Trie.ofTable table).synthesize true).LeadsTo route (.guard (.min 2) next) ∧
    route.chars = ['a'] ∧
    (∃ length ∈ route.lengths, length ≤ limit ∧ ¬ (LengthCheck.min 2).admits length) ∧
    ∃ length ∈ route.lengths, length ≤ limit ∧ (LengthCheck.min 2).admits length := by
  let table : Table Nat := ⟨.ordinal, #[⟨"ab", 0⟩, ⟨"abcd", 1⟩, ⟨"x", 2⟩], by decide⟩
  have hshort : ∀ entry ∈ table.entries, entry.label.length < limit := by decide
  have hsynthesize : (Trie.ofTable table).synthesize true =
      .guard (.range 1 4) (.dispatch 0 none [
        ('a', .guard (.min 2) (.dispatch 1 none [
          ('b', .dispatch 2 (some 0) [
            ('c', .guard (.exact 4) (.dispatch 3 none [('d', .accept 1)]))])])),
        ('x', .guard (.exact 1) (.accept 2))]) := by
    decide +kernel
  have hleads : ((Trie.ofTable table).synthesize true).LeadsTo
      [.pass (.range 1 4), .choose 0 0 'a'] (.guard (.min 2) (.dispatch 1 none [
        ('b', .dispatch 2 (some 0) [
          ('c', .guard (.exact 4) (.dispatch 3 none [('d', .accept 1)]))])])) := by
    rw [hsynthesize]
    exact .onward .pass (.onward (.choose rfl) (.here _))
  obtain ⟨-, -, hguard⟩ := guards_exact hshort hleads
  obtain ⟨hrejects, hadmits, -⟩ := hguard _ _ rfl
  exact ⟨table, _, _, hshort, hleads, rfl, hrejects, hadmits⟩

end Lexicon
