import Lexicon.Proofs.Trie.Order
import Lexicon.Trie.Run

/-!
# Chains of nodes

`Chain n cs m` says that the characters `cs` lead from `n` to `m` past nodes that leave no choice:
no label ends at them and only one character goes on. So every label through `n` goes on with `cs`
(`Chain.exists_eq_append`) and then from `m` (`Chain.lookup?_append`).

A run is the label text of a chain (`chain_of_run?_eq_some`).
-/

namespace Lexicon.Node

universe u

variable {V : Type u}

/-- The characters lead from the first node to the second, without a choice on the way. -/
inductive Chain : Node V → List Char → Node V → Prop
  | nil (n : Node V) : Chain n [] n
  | cons {n m stop : Node V} {cs : List Char} (payload_eq : n.payload = none)
      (children_eq : n.children = [m]) (tail : Chain m cs stop) : Chain n (m.char :: cs) stop

theorem isLink_iff {n : Node V} : n.isLink ↔ n.payload = none ∧ ∃ m, n.children = [m] := by
  rw [isLink, isTerminal, Bool.and_eq_true, beq_iff_eq, List.length_eq_one_iff]
  simp

theorem child?_of_children_eq {n m : Node V} (h : n.children = [m]) (c : Char) :
    n.child? c = if m.char = c then some m else none := by
  rw [child?, h]
  by_cases hc : m.char = c <;> simp [hc]

/-- The character of an only child leads to it. -/
theorem follow?_char_cons {n m : Node V} (h : n.children = [m]) (rest : List Char) :
    n.follow? (m.char :: rest) = m.follow? rest := by
  rw [follow?_cons, child?_of_children_eq h, if_pos rfl, Option.bind_some]

namespace Chain

variable {n stop : Node V} {cs : List Char}

theorem follow?_eq (h : Chain n cs stop) : n.follow? cs = some stop := by
  induction h with
  | nil => rfl
  | cons _ hchildren _ ih => rw [follow?_char_cons hchildren, ih]

theorem lookup?_append (h : Chain n cs stop) (rest : List Char) :
    n.lookup? (cs ++ rest) = stop.lookup? rest :=
  lookup?_append_of_follow? h.follow?_eq rest

/-- A label that goes through the first node of a chain begins with its characters. -/
theorem exists_eq_append (h : Chain n cs stop) {path : List Char} (hpath : (n.lookup? path).isSome) :
    ∃ rest, path = cs ++ rest := by
  induction h generalizing path with
  | nil => exact ⟨path, rfl⟩
  | cons hpayload hchildren _ ih =>
    cases path with
    | nil => simp [hpayload] at hpath
    | cons c rest =>
      rw [lookup?_cons, child?_of_children_eq hchildren] at hpath
      split at hpath
      · rename_i hc
        obtain ⟨rest', rfl⟩ := ih hpath
        exact ⟨rest', by rw [hc]; rfl⟩
      · simp at hpath

theorem valid (h : Chain n cs stop) (hn : n.Valid) : stop.Valid := by
  induction h with
  | nil => exact hn
  | cons _ hchildren _ ih => exact ih (hn.child (by simp [hchildren]))

/-- Behind the first node of a chain no path ends without a label. -/
theorem isTerminal_of_isLeaf (h : Chain n cs stop) (hn : n.Valid) (hne : cs ≠ [])
    (hleaf : stop.isLeaf) : stop.isTerminal := by
  induction h with
  | nil => exact absurd rfl hne
  | @cons n m stop cs _ hchildren htail ih =>
    have hm : m ∈ n.children := by simp [hchildren]
    rcases htail with _ | ⟨-, -, -⟩
    · exact hn.isTerminal hm hleaf
    · exact ih (hn.child hm) (by simp) hleaf

end Chain

/-- The run that begins with a node's own character goes on along a chain from the node. -/
theorem chain_spine (n : Node V) :
    ∃ rest, n.spine.chars = n.char :: rest ∧ Chain n rest n.spine.stop := by
  induction n using Node.induction with
  | step n ih =>
    obtain ⟨id, c, payload, children⟩ := n
    unfold spine
    split
    · rename_i m
      split
      · exact ⟨[], rfl, .nil _⟩
      · rename_i hgo
        have hpayload : payload = none := by
          simp only [Bool.or_eq_true, not_or, Bool.not_eq_true] at hgo
          simpa using hgo.1
        obtain ⟨rest, hchars, hchain⟩ := ih m (by simp)
        exact ⟨m.char :: rest, by rw [← hchars], .cons hpayload rfl hchain⟩
    · exact ⟨[], rfl, .nil _⟩

/-- A run is read along a chain of at least one character. -/
theorem chain_of_run?_eq_some {n : Node V} {run : Run V} (h : n.run? = some run) :
    Chain n run.chars run.stop ∧ run.chars ≠ [] := by
  unfold run? at h
  split at h
  · rename_i hcan
    rw [canCondense, Bool.and_eq_true] at hcan
    obtain ⟨hpayload, m, hchildren⟩ := isLink_iff.1 hcan.1
    rw [hchildren] at h
    obtain rfl : m.spine = run := by simpa using h
    obtain ⟨rest, hchars, hchain⟩ := chain_spine m
    rw [hchars]
    exact ⟨.cons hpayload hchildren hchain, by simp⟩
  · simp at h

end Lexicon.Node
