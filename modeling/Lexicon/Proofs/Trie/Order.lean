import Lexicon.Trie.Node
import Mathlib.Data.List.Nodup

/-!
# Order among the nodes of a trie

`Node.Valid` holds of a node whose descendants are what insertion makes them: the children of each
are in strict order of their characters, and no path ends at a node where no label does. The node
itself may be bare, as the root of an empty trie is.

Main facts: a character has at most one child (`child?_eq_some_iff`); insertion keeps validity
(`Valid.insert`), ends every path at a label (`isTerminal_insert_of_isLeaf`), and adds the label
while the payloads of all other labels stay (`lookup?_insert`).
-/

namespace Lexicon.Node

universe u

variable {V : Type u}

/-- Siblings in strict order of their characters. -/
def Ascending (ns : List (Node V)) : Prop :=
  (ns.map char).Pairwise (· < ·)

/-- Every node from this one down has its children in order, and every leaf strictly below it ends
a label. -/
inductive Valid : Node V → Prop
  | intro {n : Node V} (ascending_children : Ascending n.children)
      (isTerminal_of_isLeaf : ∀ m ∈ n.children, m.isLeaf → m.isTerminal)
      (valid_children : ∀ m ∈ n.children, m.Valid) : n.Valid

namespace Valid

variable {n m : Node V}

theorem ascending (h : n.Valid) : Ascending n.children := by
  cases h with
  | intro hasc _ _ => exact hasc

theorem isTerminal (h : n.Valid) (hm : m ∈ n.children) (hleaf : m.isLeaf) : m.isTerminal := by
  cases h with
  | intro _ hterm _ => exact hterm m hm hleaf

theorem child (h : n.Valid) (hm : m ∈ n.children) : m.Valid := by
  cases h with
  | intro _ _ hvalid => exact hvalid m hm

end Valid

theorem valid_bare (id : Nat) (c : Char) : (bare id c : Node V).Valid :=
  .intro List.Pairwise.nil (by simp [bare]) (by simp [bare])

/-! ### Children in order -/

theorem ascending_cons {m : Node V} {ns : List (Node V)} :
    Ascending (m :: ns) ↔ (∀ k ∈ ns, m.char < k.char) ∧ Ascending ns := by
  rw [Ascending, List.map_cons, List.pairwise_cons, Ascending]
  simp

/-- What comes before the first of some siblings in order comes before all of them. -/
theorem Ascending.lt_char {m : Node V} {ns : List (Node V)} (h : Ascending (m :: ns)) {c : Char}
    (hbefore : c < m.char) : ∀ k ∈ m :: ns, c < k.char := by
  rintro k (_ | ⟨_, hk⟩)
  · exact hbefore
  · exact Char.lt_trans hbefore ((ascending_cons.1 h).1 k hk)

/-- Siblings in order are told apart by their characters. -/
theorem Ascending.eq_of_char_eq {ns : List (Node V)} (h : Ascending ns) {m k : Node V}
    (hm : m ∈ ns) (hk : k ∈ ns) (hc : m.char = k.char) : m = k :=
  List.inj_on_of_nodup_map (h.imp Char.ne_of_lt) hm hk hc

/-- The child for a character is the one that holds it. -/
theorem child?_eq_some_iff {n m : Node V} (h : Ascending n.children) {c : Char} :
    n.child? c = some m ↔ m ∈ n.children ∧ m.char = c := by
  constructor
  · intro hfind
    exact ⟨List.mem_of_find?_eq_some hfind, by simpa using List.find?_some hfind⟩
  · rintro ⟨hm, rfl⟩
    obtain ⟨k, hk⟩ : ∃ k, n.child? m.char = some k :=
      Option.isSome_iff_exists.1 (List.find?_isSome.2 ⟨m, hm, by simp⟩)
    have hmem : k ∈ n.children := List.mem_of_find?_eq_some hk
    have hchar : k.char = m.char := by simpa using List.find?_some hk
    rw [hk, h.eq_of_char_eq hmem hm hchar]

theorem child?_char {n m : Node V} (h : Ascending n.children) (hm : m ∈ n.children) :
    n.child? m.char = some m :=
  (child?_eq_some_iff h).2 ⟨hm, rfl⟩

/-- From a leaf no label goes on. -/
theorem lookup?_of_isLeaf {n : Node V} (h : n.isLeaf) (path : List Char) :
    n.lookup? path = if path = [] then n.payload else none := by
  cases path with
  | nil => rfl
  | cons c rest =>
    have hchild : n.child? c = none := by rw [child?, List.isEmpty_iff.1 h]; rfl
    rw [lookup?_cons, hchild]
    rfl

/-- From the node that a sequence of characters leads to, the rest of a label leads on. -/
theorem lookup?_append_of_follow? {n m : Node V} {path : List Char} (h : n.follow? path = some m)
    (rest : List Char) : n.lookup? (path ++ rest) = m.lookup? rest := by
  rw [lookup?, follow?_append, h, Option.bind_some, lookup?]

/-- Nodes below a valid node are valid. -/
theorem Valid.of_follow? {n m : Node V} (h : n.Valid) {path : List Char}
    (hfollow : n.follow? path = some m) : m.Valid := by
  induction path generalizing n with
  | nil =>
    obtain rfl := Option.some.inj hfollow
    exact h
  | cons c rest ih =>
    obtain ⟨k, hk, hrest⟩ := Option.bind_eq_some_iff.1 hfollow
    exact ih (h.child ((child?_eq_some_iff h.ascending).1 hk).1) hrest

/-- Where the node itself is no bare leaf, no path from it ends without a label. -/
theorem Valid.isTerminal_of_follow? {n m : Node V} (h : n.Valid) (hterm : n.isLeaf → n.isTerminal)
    {path : List Char} (hfollow : n.follow? path = some m) (hleaf : m.isLeaf) : m.isTerminal := by
  induction path generalizing n with
  | nil =>
    obtain rfl := Option.some.inj hfollow
    exact hterm hleaf
  | cons c rest ih =>
    obtain ⟨k, hk, hrest⟩ := Option.bind_eq_some_iff.1 hfollow
    have hmem : k ∈ n.children := ((child?_eq_some_iff h.ascending).1 hk).1
    exact ih (h.child hmem) (h.isTerminal hmem) hrest

/-! ### The altered children -/

/-- Among siblings that all come after `c` there is none for `c`. -/
theorem find?_eq_none_of_lt {ns : List (Node V)} {c : Char} (h : ∀ k ∈ ns, c < k.char) :
    ns.find? (·.char = c) = none := by
  rw [List.find?_eq_none]
  intro k hk heq
  exact Char.lt_irrefl c (by simpa [of_decide_eq_true heq] using h k hk)

/-- Altering the child for `c` puts a node for `c` there and keeps all others. -/
theorem mem_alterChild {ns : List (Node V)} (h : Ascending ns) {c : Char}
    {f : Option (Node V) → Node V} {m : Node V} :
    m ∈ alterChild c f ns ↔ m = f (ns.find? (·.char = c)) ∨ (m ∈ ns ∧ m.char ≠ c) := by
  induction ns with
  | nil => simp [alterChild]
  | cons n rest ih =>
    obtain ⟨hlt, hrest⟩ := ascending_cons.1 h
    rw [alterChild]
    by_cases hc : n.char = c
    · -- the siblings behind the altered one have greater characters
      have hne : ∀ k ∈ rest, k.char ≠ c := fun k hk => (Char.ne_of_lt (hc ▸ hlt k hk)).symm
      rw [if_pos hc, List.find?_cons_of_pos (by simpa using hc), List.mem_cons, List.mem_cons]
      constructor
      · rintro (hm | hm)
        · exact .inl hm
        · exact .inr ⟨.inr hm, hne m hm⟩
      · rintro (hm | ⟨rfl | hm, hmc⟩)
        · exact .inl hm
        · exact absurd hc hmc
        · exact .inr hm
    · rw [if_neg hc]
      split
      · rename_i hbefore
        have hall := h.lt_char hbefore
        rw [find?_eq_none_of_lt hall, List.mem_cons]
        exact or_congr_right ⟨fun hm => ⟨hm, (Char.ne_of_lt (hall m hm)).symm⟩, And.left⟩
      · rw [List.find?_cons_of_neg (by simpa using hc), List.mem_cons, ih hrest, List.mem_cons]
        constructor
        · rintro (rfl | hm | ⟨hm, hmc⟩)
          · exact .inr ⟨.inl rfl, hc⟩
          · exact .inl hm
          · exact .inr ⟨.inr hm, hmc⟩
        · rintro (hm | ⟨rfl | hm, hmc⟩)
          · exact .inr (.inl hm)
          · exact .inl rfl
          · exact .inr (.inr ⟨hm, hmc⟩)

/-- Altering the child for `c` keeps the order if what is put there is a node for `c`. -/
theorem ascending_alterChild {ns : List (Node V)} (h : Ascending ns) {c : Char}
    {f : Option (Node V) → Node V} (hf : (f (ns.find? (·.char = c))).char = c) :
    Ascending (alterChild c f ns) := by
  induction ns with
  | nil => exact List.pairwise_singleton ..
  | cons n rest ih =>
    obtain ⟨hlt, hrest⟩ := ascending_cons.1 h
    rw [alterChild]
    by_cases hc : n.char = c
    · rw [List.find?_cons_of_pos (by simpa using hc)] at hf
      rw [if_pos hc, ascending_cons, hf, ← hc]
      exact ⟨hlt, hrest⟩
    · rw [if_neg hc]
      split
      · rename_i hbefore
        have hall := h.lt_char hbefore
        rw [find?_eq_none_of_lt hall] at hf
        rw [ascending_cons, hf]
        exact ⟨hall, h⟩
      · rename_i hafter
        -- the node for `c` comes behind `n`, so it has to be compared with `n` only
        rw [List.find?_cons_of_neg (by simpa using hc)] at hf
        refine ascending_cons.2 ⟨fun k hk => ?_, ih hrest hf⟩
        rcases (mem_alterChild hrest).1 hk with rfl | ⟨hk, -⟩
        · rw [hf]
          exact Char.not_le.1 fun hle => hc (Char.le_antisymm (Char.not_lt.1 hafter) hle)
        · exact hlt k hk

/-- Altering the child for `c` changes what `c` leads to, and nothing else. -/
theorem child?_alterChild {n : Node V} (h : Ascending n.children) {c : Char}
    {f : Option (Node V) → Node V} (hf : (f (n.child? c)).char = c) (c' : Char) :
    ({ n with children := alterChild c f n.children } : Node V).child? c' =
      if c' = c then some (f (n.child? c)) else n.child? c' := by
  have hasc : Ascending ({ n with children := alterChild c f n.children } : Node V).children :=
    ascending_alterChild h hf
  split
  · rename_i heq
    rw [child?_eq_some_iff hasc, heq]
    exact ⟨(mem_alterChild h).2 (.inl rfl), hf⟩
  · rename_i hne
    -- the only node that came in is one for `c`
    refine Option.ext fun m => ?_
    rw [child?_eq_some_iff hasc, child?_eq_some_iff h, mem_alterChild h]
    constructor
    · rintro ⟨hm | ⟨hm, -⟩, rfl⟩
      · exact absurd (hm ▸ hf) hne
      · exact ⟨hm, rfl⟩
    · rintro ⟨hm, rfl⟩
      exact ⟨.inr ⟨hm, hne⟩, rfl⟩

/-! ### Insertion -/

@[simp] theorem lookup?_bare (id : Nat) (c : Char) (path : List Char) :
    (bare id c : Node V).lookup? path = none := by
  cases path <;> rfl

/-- What insertion puts in place of a child. -/
def insertChild (c : Char) (rest : List Char) (payload : V) (next : Nat) :
    Option (Node V) → Node V
  | some m => m.insert rest payload next
  | none => (bare next c).insert rest payload (next + 1)

theorem insert_cons (n : Node V) (c : Char) (rest : List Char) (payload : V) (next : Nat) :
    n.insert (c :: rest) payload next =
      { n with children := alterChild c (insertChild c rest payload next) n.children } :=
  rfl

theorem char_insertChild {n : Node V} (h : Ascending n.children) (c : Char)
    (rest : List Char) (payload : V) (next : Nat) :
    (insertChild c rest payload next (n.child? c)).char = c := by
  cases hc : n.child? c with
  | none => rw [insertChild, char_insert]; rfl
  | some m => rw [insertChild, char_insert, ((child?_eq_some_iff h).1 hc).2]

/-- After an insertion the node below which it happened is no bare leaf. -/
theorem isTerminal_insert_of_isLeaf (n : Node V) (label : List Char) (payload : V) (next : Nat)
    (h : (n.insert label payload next).isLeaf) : (n.insert label payload next).isTerminal := by
  cases label with
  | nil => rfl
  | cons c rest =>
    -- altered children are never empty
    rw [insert_cons, isLeaf] at h
    exfalso
    cases hns : n.children with
    | nil => simp [hns, alterChild] at h
    | cons m ns =>
      rw [hns] at h
      dsimp only [alterChild] at h
      repeat' split at h
      all_goals simp at h

/-- Insertion keeps order and leaves no path without a label at its end. -/
theorem Valid.insert {n : Node V} (h : n.Valid) (label : List Char) (payload : V) (next : Nat) :
    (n.insert label payload next).Valid := by
  induction label generalizing n next with
  | nil => exact .intro h.ascending (fun _ => h.isTerminal) fun _ => h.child
  | cons c rest ih =>
    have hchild : (insertChild c rest payload next (n.child? c)).Valid := by
      cases hc : n.child? c with
      | none => exact ih (valid_bare next c) (next + 1)
      | some m => exact ih (h.child ((child?_eq_some_iff h.ascending).1 hc).1) next
    rw [insert_cons]
    refine .intro (ascending_alterChild h.ascending (char_insertChild h.ascending ..)) ?_ ?_
    · intro m hm hleaf
      -- the altered child has been inserted into; all others are as they were
      rcases (mem_alterChild h.ascending).1 hm with rfl | ⟨hm, -⟩
      · change (insertChild c rest payload next (n.child? c)).isTerminal
        change (insertChild c rest payload next (n.child? c)).isLeaf at hleaf
        cases hc : n.child? c with
        | none => exact isTerminal_insert_of_isLeaf _ _ _ _ (by rwa [hc] at hleaf)
        | some m => exact isTerminal_insert_of_isLeaf _ _ _ _ (by rwa [hc] at hleaf)
      · exact h.isTerminal hm hleaf
    · intro m hm
      rcases (mem_alterChild h.ascending).1 hm with rfl | ⟨hm, -⟩
      · exact hchild
      · exact h.child hm

/-- After an insertion the label has its payload, and every other label what it had before. -/
theorem lookup?_insert {n : Node V} (h : n.Valid) (label : List Char) (payload : V) (next : Nat)
    (path : List Char) : (n.insert label payload next).lookup? path =
      if path = label then some payload else n.lookup? path := by
  induction label generalizing n next path with
  | nil =>
    cases path with
    | nil => rfl
    | cons c rest => rfl
  | cons c rest ih =>
    rw [insert_cons]
    cases path with
    | nil => rfl
    | cons c' rest' =>
      rw [lookup?_cons, child?_alterChild h.ascending (char_insertChild h.ascending ..),
        lookup?_cons]
      by_cases hc : c' = c
      · -- the question is that of the child, which may be a new one
        subst hc
        rw [if_pos rfl, Option.bind_some]
        cases hm : n.child? c' with
        | none => rw [insertChild, ih (valid_bare next c')]; simp
        | some m =>
          have hvalid : m.Valid := h.child ((child?_eq_some_iff h.ascending).1 hm).1
          rw [insertChild, ih hvalid]; simp
      · simp [hc]

end Lexicon.Node
