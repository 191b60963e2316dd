import Lexicon.Proofs.Trie.Contents
import Lexicon.Trie.Prefixes
import Mathlib.Data.List.Infix
import Mathlib.Data.List.Nodup

/-!
# How nodes are numbered

Insertion leaves the numbers of the nodes that are there as they are, and counts on along the rest
of the label (`Node.map_id_follow?_insert`). So the number of a node is the position of its prefix
among all prefixes in the order of their first occurrence (`Trie.numbered_insertAll`), and there are
as many nodes as prefixes.
-/

namespace Lexicon

universe u

variable {V : Type u}

namespace Node

/-! ### Depth -/

theorem depth_cons (n : Node V) (c : Char) (rest : List Char) :
    n.depth (c :: rest) = (n.child? c).elim 0 fun m => m.depth rest + 1 := by
  rw [depth]
  cases n.child? c <;> rfl

@[simp] theorem depth_bare (id : Nat) (c : Char) (label : List Char) :
    (bare id c : Node V).depth label = 0 := by
  cases label <;> rfl

@[simp] theorem follow?_bare_cons (id : Nat) (c c' : Char) (rest : List Char) :
    (bare id c : Node V).follow? (c' :: rest) = none :=
  rfl

/-- A label leads to nodes just as far as its depth says. -/
theorem isSome_follow?_iff_length_le {path label : List Char} (h : path <+: label) (n : Node V) :
    (n.follow? path).isSome ↔ path.length ≤ n.depth label := by
  induction path generalizing n label with
  | nil => simp
  | cons c rest ih =>
    obtain ⟨label, rfl, hrest⟩ := List.cons_prefix_iff.1 h
    rw [follow?_cons, depth_cons, List.length_cons]
    cases n.child? c with
    | none => simp
    | some m => simpa using ih hrest m

theorem depth_le_length (n : Node V) (label : List Char) : n.depth label ≤ label.length := by
  induction label generalizing n with
  | nil => exact Nat.le_refl 0
  | cons c rest ih =>
    rw [depth_cons, List.length_cons]
    cases n.child? c with
    | none => exact Nat.zero_le _
    | some m => exact Nat.succ_le_succ (ih m)

/-! ### Numbers after an insertion -/

/-- **Insertion numbers what it adds in order.** A prefix that leads to a node keeps the number of
that node. Of the others those of the label get one each, on from the first that is free. -/
theorem map_id_follow?_insert {n : Node V} (h : n.Valid) (label : List Char) (payload : V)
    (next : Nat) (path : List Char) :
    ((n.insert label payload next).follow? path).map id =
      ((n.follow? path).map id).or
        (if path <+: label then some (next + (path.length - (n.depth label + 1))) else none) := by
  induction label generalizing n next path with
  | nil =>
    cases path with
    | nil => rfl
    | cons c rest =>
      have hsame : (n.insert [] payload next).follow? (c :: rest) = n.follow? (c :: rest) := rfl
      simp [hsame]
  | cons c rest ih =>
    cases path with
    | nil => rfl
    | cons c' rest' =>
      rw [insert_cons, follow?_cons, child?_alterChild h.ascending (char_insertChild h.ascending ..),
        follow?_cons, depth_cons]
      by_cases hc : c' = c
      · subst hc
        rw [if_pos rfl, Option.bind_some]
        cases hm : n.child? c' with
        | none =>
          rw [insertChild, ih (valid_bare next c')]
          cases rest' with
          | nil => simp [bare]
          | cons c'' rest'' => simp [Nat.add_assoc, Nat.add_comm 1]
        | some m =>
          have hvalid : m.Valid := h.child ((child?_eq_some_iff h.ascending).1 hm).1
          rw [insertChild, ih hvalid]
          simp
      · simp [hc]

/-! ### The number of nodes -/

/-- Altering the child for `c` changes the number of nodes by what changes below it. -/
theorem countAll_alterChild {ns : List (Node V)} (h : Ascending ns) (c : Char)
    (f : Option (Node V) → Node V) :
    countAll (alterChild c f ns) + (ns.find? (·.char = c)).elim 0 count =
      countAll ns + (f (ns.find? (·.char = c))).count := by
  induction ns with
  | nil => simp [alterChild, countAll]
  | cons m rest ih =>
    rw [alterChild]
    by_cases hc : m.char = c
    · rw [if_pos hc, List.find?_cons_of_pos (by simpa using hc), countAll, countAll, Option.elim]
      omega
    · rw [if_neg hc]
      split
      · rename_i hbefore
        rw [find?_eq_none_of_lt (h.lt_char hbefore), countAll, Option.elim]
        omega
      · rw [List.find?_cons_of_neg (by simpa using hc), countAll, countAll]
        have := ih (ascending_cons.1 h).2
        omega

/-- Insertion makes a node for each character of the label beyond its depth. -/
theorem count_insert {n : Node V} (h : n.Valid) (label : List Char) (payload : V) (next : Nat) :
    (n.insert label payload next).count = n.count + (label.length - n.depth label) := by
  induction label generalizing n next with
  | nil => rw [insert, count_eq, count_eq, List.length_nil, Nat.zero_sub, Nat.add_zero]
  | cons c rest ih =>
    have halter := countAll_alterChild h.ascending c (insertChild c rest payload next)
    have hfind : n.children.find? (·.char = c) = n.child? c := rfl
    rw [hfind] at halter
    rw [insert_cons, count_eq, count_eq n, depth_cons, List.length_cons]
    dsimp only
    cases hm : n.child? c with
    | none =>
      rw [hm, insertChild, ih (valid_bare next c), depth_bare, count_eq] at halter
      simp only [bare, countAll, Option.elim] at halter ⊢
      omega
    | some m =>
      have hvalid : m.Valid := h.child ((child?_eq_some_iff h.ascending).1 hm).1
      have hdepth := m.depth_le_length rest
      rw [hm, insertChild, ih hvalid] at halter
      simp only [Option.elim] at halter ⊢
      omega

end Node

/-! ### Prefixes -/

/-- In the list of the beginnings of a text, each stands at its length. -/
theorem getElem?_drop_inits_eq_some_iff {text path : List Char} {k i : Nat} :
    (text.inits.drop k)[i]? = some path ↔ path <+: text ∧ path.length = k + i := by
  rw [List.getElem?_drop, List.getElem?_eq_some_iff]
  simp only [List.getElem_inits, List.length_inits]
  constructor
  · rintro ⟨hlt, rfl⟩
    have hbegins : text.take (k + i) <+: text := List.take_prefix ..
    exact ⟨hbegins, List.length_take_of_le (by omega)⟩
  · rintro ⟨hbegins, hlength⟩
    have hle := hbegins.length_le
    exact ⟨by omega, by rw [← hlength]; exact (List.prefix_iff_eq_take.1 hbegins).symm⟩

theorem nodup_drop_inits (text : List Char) (k : Nat) : (text.inits.drop k).Nodup := by
  rw [List.nodup_iff_getElem?_ne_getElem?]
  intro i j hij hlt heq
  have hj := List.getElem?_eq_getElem hlt
  have hi := getElem?_drop_inits_eq_some_iff.1 (heq.trans hj)
  have := getElem?_drop_inits_eq_some_iff.1 hj
  omega

private theorem eraseDups_of_nodup {α : Type u} [BEq α] [LawfulBEq α] {xs : List α}
    (h : xs.Nodup) : xs.eraseDups = xs := by
  induction xs with
  | nil => rfl
  | cons x rest ih =>
    obtain ⟨hx, hrest⟩ := List.nodup_cons.1 h
    have hfilter : rest.filter (fun y => !y == x) = rest := by
      rw [List.filter_eq_self]
      intro y hy
      have hne : y ≠ x := fun heq => hx (heq ▸ hy)
      simpa using hne
    rw [List.eraseDups_cons, hfilter, ih hrest]

theorem mem_prefixes {entries : List (Entry V)} {path : List Char} :
    path ∈ prefixes entries ↔ path = [] ∨ ∃ entry ∈ entries, path <+: entry.label.toList := by
  simp [prefixes, List.mem_eraseDups]

theorem getElem?_prefixes_zero (entries : List (Entry V)) : (prefixes entries)[0]? = some [] := by
  rw [prefixes, List.eraseDups_cons]
  rfl

/-- One more entry brings in those prefixes of its label that are not there yet. -/
theorem prefixes_concat {entries : List (Entry V)} {entry : Entry V} {k : Nat}
    (h : ∀ path, path <+: entry.label.toList → (path ∈ prefixes entries ↔ path.length < k)) :
    prefixes (entries ++ [entry]) = prefixes entries ++ entry.label.toList.inits.drop k := by
  let known := [] :: entries.flatMap fun entry => entry.label.toList.inits
  have hknown : ∀ path, path ∈ known ↔ path ∈ prefixes entries := fun path =>
    List.mem_eraseDups.symm
  -- the beginnings of the label are there already up to the length, and the longer ones are not
  have htake : (entry.label.toList.inits.take k).removeAll known = [] := by
    rw [List.removeAll, List.filter_eq_nil_iff]
    intro path hpath
    obtain ⟨i, hi⟩ := List.mem_iff_getElem?.1 hpath
    rw [List.getElem?_take] at hi
    split at hi
    · rename_i hlt
      obtain ⟨hbegins, hlength⟩ := (getElem?_drop_inits_eq_some_iff (k := 0)).1 hi
      have hmem := (hknown path).2 ((h path hbegins).2 (by omega))
      simpa using hmem
    · simp at hi
  have hdrop : (entry.label.toList.inits.drop k).removeAll known =
      entry.label.toList.inits.drop k := by
    rw [List.removeAll, List.filter_eq_self]
    intro path hpath
    obtain ⟨i, hi⟩ := List.mem_iff_getElem?.1 hpath
    obtain ⟨hbegins, hlength⟩ := getElem?_drop_inits_eq_some_iff.1 hi
    have hmem : path ∉ known := fun hmem => by
      have := (h path hbegins).1 ((hknown path).1 hmem)
      omega
    simpa using hmem
  have hsplit : entry.label.toList.inits.removeAll known = entry.label.toList.inits.drop k := by
    conv_lhs => rw [← List.take_append_drop k entry.label.toList.inits]
    rw [List.removeAll, List.filter_append]
    exact (congrArg₂ _ htake hdrop).trans (List.nil_append _)
  have happend : prefixes (entries ++ [entry]) = (known ++ entry.label.toList.inits).eraseDups := by
    rw [prefixes, List.flatMap_append, List.flatMap_singleton]
    rfl
  rw [happend, List.eraseDups_append, hsplit, eraseDups_of_nodup (nodup_drop_inits ..)]
  rfl

namespace Trie

/-- A path leads on by its last character from where the rest of it leads. -/
theorem node?_concat (t : Trie V) (path : List Char) (c : Char) :
    t.node? (path ++ [c]) = (t.node? path).bind fun n => n.child? c := by
  rw [node?, Node.follow?_append, node?]
  refine congrArg _ (funext fun n => ?_)
  rw [Node.follow?_cons]
  exact Option.bind_fun_some _

theorem map_id_node?_insert {t : Trie V} (hvalid : t.root.Valid) (label : List Char) (payload : V)
    (path : List Char) : ((t.insert label payload).node? path).map Node.id =
      ((t.node? path).map Node.id).or (if path <+: label then
        some (t.size + (path.length - (t.root.depth label + 1))) else none) :=
  Node.map_id_follow?_insert hvalid label payload t.size path

/-- A beginning of a label that leads to no node is longer than the depth of the label. -/
theorem depth_lt_of_eq_none {t : Trie V} {label path : List Char} (hbegins : path <+: label)
    (hnone : (t.node? path).map Node.id = none) : t.root.depth label < path.length := by
  by_contra hle
  have hsome : (t.node? path).isSome :=
    (Node.isSome_follow?_iff_length_le hbegins t.root).2 (Nat.not_lt.1 hle)
  rw [Option.map_eq_none_iff] at hnone
  simp [hnone] at hsome

/-- The nodes of a trie are numbered as the list goes. -/
structure Numbered (t : Trie V) (paths : List (List Char)) : Prop where
  /-- The number of a node is the position of the path that leads to it. -/
  map_id_eq_some_iff : ∀ path id, (t.node? path).map Node.id = some id ↔ paths[id]? = some path
  /-- The next number is the first that is free. -/
  size_eq : t.size = paths.length
  /-- There are as many nodes as numbers. -/
  count_root : t.root.count = t.size
  /-- A node comes after its parent. -/
  lt_of_concat : ∀ path c id id', (t.node? path).map Node.id = some id →
    (t.node? (path ++ [c])).map Node.id = some id' → id < id'

theorem numbered_empty (fold : CaseFold) : (empty fold : Trie V).Numbered [[]] where
  map_id_eq_some_iff path id := by
    cases path with
    | nil => cases id <;> simp [node?, empty, Node.bare]
    | cons c rest => cases id <;> simp [node?, empty]
  size_eq := rfl
  count_root := rfl
  lt_of_concat path c id id' _ h := by
    cases path <;> simp [node?, empty] at h

namespace Numbered

variable {t : Trie V} {paths : List (List Char)}

theorem isSome_node?_iff (h : t.Numbered paths) {path : List Char} :
    (t.node? path).isSome ↔ path ∈ paths := by
  rw [List.mem_iff_getElem?, ← Option.isSome_map, Option.isSome_iff_exists]
  exact exists_congr fun id => h.map_id_eq_some_iff path id

theorem lt_size (h : t.Numbered paths) {path : List Char} {id : Nat}
    (hid : (t.node? path).map Node.id = some id) : id < t.size := by
  rw [h.size_eq]
  exact (List.getElem?_eq_some_iff.1 ((h.map_id_eq_some_iff path id).1 hid)).1

/-- A path has one number only. -/
theorem nodup (h : t.Numbered paths) : paths.Nodup := by
  rw [List.nodup_iff_getElem?_ne_getElem?]
  intro i j hij hlt heq
  have hj := List.getElem?_eq_getElem hlt
  have hi' := (h.map_id_eq_some_iff _ i).2 (heq.trans hj)
  have hj' := (h.map_id_eq_some_iff _ j).2 hj
  exact absurd (Option.some.inj (hi'.symm.trans hj')) (Nat.ne_of_lt hij)

section

variable {label path : List Char} {id : Nat}

/-- Continuing the list does not move a path that leads to a node. -/
private theorem getElem?_append_iff_of_eq_some (h : t.Numbered paths) {old : Nat}
    (hold : (t.node? path).map Node.id = some old) :
    (paths ++ label.inits.drop (t.root.depth label + 1))[id]? = some path ↔ old = id := by
  have hpath := (h.map_id_eq_some_iff path old).1 hold
  constructor
  · intro hid
    by_cases hlt : id < paths.length
    · rw [List.getElem?_append_left hlt, ← h.map_id_eq_some_iff, hold] at hid
      exact Option.some.inj hid
    · -- what is appended leads to no node
      rw [List.getElem?_append_right (by omega), getElem?_drop_inits_eq_some_iff] at hid
      have hsome : (t.node? path).isSome := by
        rw [h.isSome_node?_iff]
        exact List.mem_of_getElem? hpath
      have := (Node.isSome_follow?_iff_length_le hid.1 t.root).1 hsome
      omega
  · rintro rfl
    rwa [List.getElem?_append_left (List.getElem?_eq_some_iff.1 hpath).1]

/-- Of the paths that lead to no node the list goes on with the beginnings of the label. -/
private theorem getElem?_append_iff_of_eq_none (h : t.Numbered paths)
    (hnone : (t.node? path).map Node.id = none) :
    (paths ++ label.inits.drop (t.root.depth label + 1))[id]? = some path ↔
      path <+: label ∧ t.size + (path.length - (t.root.depth label + 1)) = id := by
  rw [h.size_eq]
  by_cases hlt : id < paths.length
  · have hne : paths[id]? ≠ some path := fun hid => by
      rw [← h.map_id_eq_some_iff, hnone] at hid
      exact absurd hid (by simp)
    rw [List.getElem?_append_left hlt]
    exact iff_of_false hne fun hid => by omega
  · rw [List.getElem?_append_right (by omega), getElem?_drop_inits_eq_some_iff]
    refine and_congr_right fun hbegins => ?_
    have := depth_lt_of_eq_none hbegins hnone
    omega

/-- After one more label a node still comes after its parent. -/
private theorem lt_of_concat_insert (h : t.Numbered paths) (hvalid : t.root.Valid) (payload : V)
    {c : Char} {id' : Nat} (hid : ((t.insert label payload).node? path).map Node.id = some id)
    (hid' : ((t.insert label payload).node? (path ++ [c])).map Node.id = some id') : id < id' := by
  rw [map_id_node?_insert hvalid] at hid hid'
  cases hold' : (t.node? (path ++ [c])).map Node.id with
  | some old' =>
    -- then the path in front leads to a node as well
    have hsome : ((t.node? path).map Node.id).isSome := by
      have hsome' : ((t.node? (path ++ [c])).map Node.id).isSome := by rw [hold']; rfl
      rw [Option.isSome_map, node?_concat] at hsome'
      rw [Option.isSome_map]
      exact Option.isSome_of_isSome_bind hsome'
    obtain ⟨old, hold⟩ := Option.isSome_iff_exists.1 hsome
    rw [hold, Option.some_or, Option.some.injEq] at hid
    rw [hold', Option.some_or, Option.some.injEq] at hid'
    exact hid ▸ hid' ▸ h.lt_of_concat path c old old' hold hold'
  | none =>
    rw [hold', Option.none_or, Option.ite_none_right_eq_some, Option.some.injEq,
      List.length_append, List.length_singleton] at hid'
    cases hold : (t.node? path).map Node.id with
    | some old =>
      have := h.lt_size hold
      rw [hold, Option.some_or, Option.some.injEq] at hid
      omega
    | none =>
      rw [hold, Option.none_or, Option.ite_none_right_eq_some, Option.some.injEq] at hid
      have := depth_lt_of_eq_none hid.1 hold
      omega

end

/-- One more label continues the list by those of its beginnings that do not lead to nodes. -/
theorem insert (h : t.Numbered paths) (hvalid : t.root.Valid) (label : List Char) (payload : V) :
    (t.insert label payload).Numbered
      (paths ++ label.inits.drop (t.root.depth label + 1)) where
  map_id_eq_some_iff path id := by
    rw [map_id_node?_insert hvalid]
    cases hold : (t.node? path).map Node.id with
    | some old => rw [Option.some_or, Option.some.injEq, h.getElem?_append_iff_of_eq_some hold]
    | none =>
      rw [Option.none_or, Option.ite_none_right_eq_some, Option.some.injEq,
        h.getElem?_append_iff_of_eq_none hold]
  size_eq := by
    have hdepth := t.root.depth_le_length label
    rw [List.length_append, List.length_drop, List.length_inits, ← h.size_eq]
    change t.size + (label.length - t.root.depth label) = _
    omega
  count_root := by
    change (t.root.insert label payload t.size).count = t.size + (label.length - t.root.depth label)
    rw [Node.count_insert hvalid, h.count_root]
  lt_of_concat _ _ _ _ hid hid' := h.lt_of_concat_insert hvalid payload hid hid'

end Numbered

/-- **A trie numbers the prefixes of its labels** in the order of their first occurrence. -/
theorem numbered_insertAll (fold : CaseFold) (entries : List (Entry V)) :
    ((empty fold).insertAll entries).Numbered (prefixes entries) := by
  induction entries using List.reverseRecOn with
  | nil => exact numbered_empty fold
  | append_singleton entries entry ih =>
    have hvalid : ((empty fold).insertAll entries).root.Valid :=
      valid_root_insertAll (Node.valid_bare ..) entries
    rw [insertAll_concat, prefixes_concat fun path hbegins => ?_]
    · exact ih.insert hvalid entry.label.toList entry.payload
    · rw [← ih.isSome_node?_iff, Nat.lt_succ_iff]
      exact Node.isSome_follow?_iff_length_le hbegins _

theorem count_root_ofTable (table : Table V) : (ofTable table).root.count = (ofTable table).size := by
  rw [ofTable_eq_insertAll]
  exact (numbered_insertAll table.fold _).count_root

end Trie

end Lexicon
