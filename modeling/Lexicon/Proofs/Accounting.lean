import Lexicon.Decision.Stats
import Lexicon.Proofs.Synthesis.Erasure
import Lexicon.Proofs.Synthesis.Sites
import Lexicon.Proofs.Trie.Numbering
import Lexicon.Proofs.Trie.Preorder
import Mathlib.Data.Set.Card

/-!
# Accounts of a synthesized decision

The statistics of a synthesized decision account for the nodes of its trie and for its labels. A
test of a run counts for a branch with one case, so that erasing a decision keeps its account
(`Decision.count_stats_erase`). What is left of a synthesized decision when it is erased is the
plain decision of the trie, whose nodes are those of the trie one by one
(`Node.heads_plainDecision`). So every count is a sum over the nodes of the trie, of any trie
(`Trie.count_stats_synthesize`).

In the trie of a table the nodes with a payload are the labels (`Trie.perm_labels`), and a node that
is no leaf is one behind which a label goes on (`Trie.isContinued_iff`). That turns sums over nodes
into numbers of labels (`stats_account`).
-/

namespace Lexicon

universe u

variable {V : Type u}

open Stats (Additive)

/-! ### Erasing and counting -/

/-- The counts of a decision once it is erased: guards are gone, and a test counts for a branch with
one case. -/
def Stats.erased (s : Stats) : Stats :=
  { s with
    lengthChecks := 0
    condensed := 0
    condensedTerms := 0
    dispatches := s.dispatches + s.condensedTerms
    dispatchCases := s.dispatchCases + s.condensedTerms }

theorem Stats.Additive.erased {count : Stats → Nat} (h : Additive count) :
    Additive fun s => count s.erased where
  zero := h.zero
  add s t := by
    rw [← h.add]
    simp [Stats.erased, Stats.add, Nat.add_add_add_comm]

/-- What is left of a node when its decision is erased: nothing of a guard, and of a run a branch
for every test. -/
def Head.erase : Head V → List (Head V)
  | guard _ => []
  | spell tests => tests.map fun test => dispatch test.offset none [test.char]
  | head => [head]

namespace Decision

theorem heads_spellOut (tests : List CharTest) (next : Decision V) :
    (spellOut tests next).heads = (Head.spell tests).erase ++ next.heads := by
  induction tests with
  | nil => rfl
  | cons test tests ih =>
    rw [spellOut_cons, heads_dispatch, List.map_singleton, List.flatMap_singleton, ih]
    rfl

theorem heads_erase (d : Decision V) : d.erase.heads = d.heads.flatMap Head.erase := by
  induction d using Decision.induction with
  | guard check next ih => rw [erase, heads_guard, List.flatMap_cons, ih]; rfl
  | spell tests next ih => rw [erase, heads_spell, List.flatMap_cons, heads_spellOut, ih]
  | dispatch offset onEnd cases ih =>
    rw [erase, eraseCases_eq_map, heads_dispatch, heads_dispatch, List.flatMap_cons, List.map_map,
      List.flatMap_map, List.flatMap_assoc, List.flatMap_congr ih]
    rfl
  | accept payload => rfl
  | miss => rfl

/-- A count that adds up is the sum of what the nodes count for. -/
theorem count_stats_eq_sum {count : Stats → Nat} (h : Additive count) (d : Decision V) :
    count d.stats = (d.heads.map fun head => count head.stats).sum := by
  rw [count_stats h, List.sum_eq_foldl, List.foldl_map]

/-- What is counted of an erased decision can be told from the counts of the decision. -/
theorem count_stats_erase {count : Stats → Nat} (h : Additive count) (d : Decision V) :
    count d.erase.stats = count d.stats.erased := by
  have hhead : ∀ head : Head V,
      (head.erase.map fun part => count part.stats).sum = count head.stats.erased := by
    intro head
    cases head with
    | guard check => exact h.zero.symm
    | spell tests =>
      induction tests with
      | nil => exact h.zero.symm
      | cons test tests ih =>
        rw [Head.erase] at ih ⊢
        rw [List.map_cons, List.map_cons, List.sum_cons, ih, ← h.add]
        simp [Head.stats, Stats.erased, Stats.add, Stats.zero, Nat.add_comm]
    | _ => simp [Head.erase, Head.stats, Stats.erased, Stats.zero]
  rw [count_stats_eq_sum h, count_stats_eq_sum h.erased, heads_erase, List.map_flatMap,
    List.flatMap, List.sum_flatten, List.map_map]
  exact congrArg List.sum (List.map_congr_left fun head _ => hhead head)

end Decision

/-! ### Sums over the nodes of a trie -/

namespace Node

/-- What a node of a trie becomes in the plain decision. -/
def plainHead (n : Node V) (depth : Nat) : Head V :=
  if n.isLeaf then n.payload.elim .miss .accept
  else .dispatch depth n.payload (n.children.map char)

/-- What a node of a trie counts for in the plain decision. -/
def stats (n : Node V) : Stats :=
  { Stats.zero with
    dispatches := if !n.isLeaf then 1 else 0
    dispatchCases := n.children.length
    earlyReturns := if !n.isLeaf && n.isTerminal then 1 else 0
    terminalReturns := if n.isLeaf && n.isTerminal then 1 else 0
    misses := if n.isLeaf && !n.isTerminal then 1 else 0 }

theorem stats_plainHead (n : Node V) (depth : Nat) : (n.plainHead depth).stats = n.stats := by
  by_cases hleaf : n.isLeaf
  · rw [plainHead, if_pos hleaf, stats, isTerminal]
    cases n.payload <;> simp [Head.stats, Stats.zero, hleaf, List.isEmpty_iff.1 hleaf]
  · simp [plainHead, stats, isTerminal, Head.stats, Stats.zero, hleaf]

/-- The plain decision has a node for every node of the trie, in the same order. -/
theorem heads_plainDecision (n : Node V) (depth : Nat) :
    (n.plainDecision depth).heads =
      n.preorder.map fun entry => entry.2.plainHead (depth + entry.1.length) := by
  induction n using Node.induction generalizing depth with
  | step n ih =>
    rw [preorder, List.map_cons, List.map_flatMap]
    by_cases hleaf : n.isLeaf
    · rw [plainDecision_of_isLeaf hleaf, List.isEmpty_iff.1 hleaf, plainHead, if_pos hleaf]
      cases n.payload <;> rfl
    · rw [plainDecision_of_not_isLeaf hleaf, Decision.heads_dispatch, plainHead, if_neg hleaf,
        List.map_map, List.flatMap_map]
      refine congrArg _ (List.flatMap_congr fun m hm => ?_)
      rw [ih m hm, List.map_map]
      refine List.map_congr_left fun entry _ => ?_
      rw [Function.comp_apply, List.length_cons, Nat.add_assoc, Nat.add_comm 1]

end Node

namespace Trie

/-- Once erased, every count of a synthesized decision is the sum of what the nodes of the trie
count for, with runs and without. -/
theorem count_stats_synthesize (count : Stats → Nat) (h : Additive count) (t : Trie V)
    (condense : Bool) :
    count (t.synthesize condense).stats.erased =
      (t.root.preorder.map fun entry => count entry.2.stats).sum := by
  rw [← Decision.count_stats_erase h, synthesize, Node.erase_decision,
    Decision.count_stats_eq_sum h, Node.heads_plainDecision, List.map_map]
  refine congrArg List.sum (List.map_congr_left fun entry _ => ?_)
  rw [Function.comp_apply, Node.stats_plainHead]

/-- A count that some nodes of the trie add one to, and the others nothing, is the number of these
nodes. -/
theorem count_stats_synthesize_eq_countP (count : Stats → Nat) (h : Additive count)
    {p : Node V → Bool} (hp : ∀ n : Node V, count n.stats = if p n then 1 else 0) (t : Trie V)
    (condense : Bool) :
    count (t.synthesize condense).stats.erased =
      t.root.preorder.countP fun entry => p entry.2 := by
  rw [count_stats_synthesize count h]
  generalize t.root.preorder = nodes
  induction nodes with
  | nil => rfl
  | cons entry rest ih =>
    rw [List.map_cons, List.sum_cons, ih, hp, List.countP_cons, Nat.add_comm]

end Trie

/-! ### Labels -/

/-- Some label of the table goes on behind the characters. -/
def Table.IsContinued (t : Table V) (path : List Char) : Prop :=
  ∃ label ∈ t.labels, path <+: label.toList ∧ path ≠ label.toList

instance (t : Table V) (path : List Char) : Decidable (t.IsContinued path) :=
  inferInstanceAs (Decidable (∃ label ∈ t.labels, path <+: label.toList ∧ path ≠ label.toList))

namespace Trie

variable {table : Table V}

theorem node?_of_mem_preorder {entry : List Char × Node V}
    (h : entry ∈ (ofTable table).root.preorder) : (ofTable table).node? entry.1 = some entry.2 :=
  (Node.mem_preorder_iff (valid_root_ofTable table)).1 h

/-- The nodes that are no leaves are those behind which a label goes on. -/
theorem isContinued_iff {path : List Char} {n : Node V}
    (h : (ofTable table).node? path = some n) : table.IsContinued path ↔ n.isLeaf = false := by
  constructor
  · rintro ⟨label, hlabel, ⟨rest, hrest⟩, hne⟩
    obtain ⟨entry, hentry, rfl⟩ := List.mem_map.1 hlabel
    have hrest_ne : rest ≠ [] := by
      rintro rfl
      exact hne (by simpa using hrest)
    have hsome := (lookup?_eq_some_iff h).2 ⟨entry, by simpa using hentry, hrest.symm, rfl⟩
    by_contra hleaf
    rw [Node.lookup?_of_isLeaf (by simpa using hleaf), if_neg hrest_ne] at hsome
    exact Option.some_ne_none _ hsome.symm
  · intro hleaf
    obtain ⟨rest, hrest, hlonger⟩ := (valid_of_node? h).exists_longer (by simp [hleaf])
    obtain ⟨entry, hentry, hlabel, -⟩ := exists_entry_of_isSome h hrest
    refine ⟨entry.label, List.mem_map_of_mem (by simpa using hentry), ⟨rest, hlabel.symm⟩, ?_⟩
    rw [hlabel]
    simpa using List.ne_nil_of_length_pos hlonger

/-- The nodes with a payload are those of the labels. -/
theorem perm_labels (table : Table V) :
    List.Perm (((ofTable table).root.preorder.filter fun entry => entry.2.isTerminal).map Prod.fst)
      (table.labels.map String.toList) := by
  have hvalid := valid_root_ofTable table
  have hnodup : (table.labels.map String.toList).Nodup :=
    List.Nodup.map (fun _ _ => String.toList_inj.1) table.nodup
  have hnodup' := (Node.nodup_paths_preorder hvalid).sublist
    ((List.filter_sublist (p := fun entry => entry.2.isTerminal)).map _)
  refine (List.perm_ext_iff_of_nodup hnodup' hnodup).2 fun path => ?_
  simp only [List.mem_map, List.mem_filter, Prod.exists, exists_and_right, exists_eq_right,
    Node.mem_preorder_iff hvalid, Table.labels]
  constructor
  · rintro ⟨n, hn, hterminal⟩
    obtain ⟨payload, hpayload⟩ := Option.isSome_iff_exists.1 hterminal
    obtain ⟨entry, hentry, hlabel, -⟩ := (payload_eq_some_iff hn).1 hpayload
    exact ⟨entry.label, ⟨entry, by simpa using hentry, rfl⟩, hlabel⟩
  · rintro ⟨_, ⟨entry, hentry, rfl⟩, rfl⟩
    have hlookup := lookup?_root_ofTable.2 ⟨entry, by simpa using hentry, rfl, rfl⟩
    obtain ⟨n, hn, hpayload⟩ := Option.bind_eq_some_iff.1 hlookup
    exact ⟨n, hn, Option.isSome_iff_exists.2 ⟨_, hpayload⟩⟩

/-- Labels are counted at their nodes. -/
theorem countP_preorder_eq (table : Table V) (p : List Char → Bool) :
    ((ofTable table).root.preorder.countP fun entry => p entry.1 && entry.2.isTerminal) =
      table.labels.countP fun label => p label.toList := by
  have hperm := (perm_labels table).countP_eq p
  rwa [List.countP_map, List.countP_map, List.countP_filter] at hperm

/-- Nodes below which labels go on are told apart by their paths. -/
theorem ncard_not_isLeaf (table : Table V) :
    Set.ncard {path | ∃ n, (ofTable table).node? path = some n ∧ ¬ n.isLeaf} =
      (ofTable table).root.preorder.countP fun entry => !entry.2.isLeaf := by
  have hvalid := valid_root_ofTable table
  let paths := ((ofTable table).root.preorder.filter fun entry => !entry.2.isLeaf).map Prod.fst
  have hnodup : paths.Nodup :=
    (Node.nodup_paths_preorder hvalid).sublist (List.filter_sublist.map _)
  have hset : {path | ∃ n, (ofTable table).node? path = some n ∧ ¬ n.isLeaf} =
      (paths.toFinset : Set (List Char)) := by
    ext path
    simp [paths, Node.mem_preorder_iff hvalid, node?]
  rw [hset, Set.ncard_coe_finset, List.toFinset_card_of_nodup hnodup, List.length_map,
    List.countP_eq_length_filter]

/-! ### Each count of a table -/

/-- A count of the nodes with a payload, told apart by whether they are leaves, is the number of the
labels at these nodes. -/
theorem count_stats_ofTable (count : Stats → Nat) (h : Additive count) (p : Bool → Bool)
    (hp : ∀ n : Node V, count n.stats = if p n.isLeaf && n.isTerminal then 1 else 0)
    (table : Table V) (condense : Bool) :
    count ((ofTable table).synthesize condense).stats.erased =
      table.labels.countP fun label => p (!decide (table.IsContinued label.toList)) := by
  rw [count_stats_synthesize_eq_countP count h hp,
    ← countP_preorder_eq table fun path => p (!decide (table.IsContinued path))]
  refine List.countP_congr fun entry hentry => ?_
  simp [isContinued_iff (node?_of_mem_preorder hentry)]

/-- Where labels go on, payloads are found early. -/
theorem earlyReturns_ofTable (table : Table V) (condense : Bool) :
    ((ofTable table).synthesize condense).stats.earlyReturns =
      table.labels.countP fun label => table.IsContinued label.toList := by
  have hcount := count_stats_ofTable Stats.earlyReturns ⟨rfl, fun _ _ => rfl⟩ not (fun _ => rfl)
    table condense
  simpa only [Stats.erased, Bool.not_not] using hcount

/-- Where no label goes on, payloads are found at the end of a path. -/
theorem terminalReturns_ofTable (table : Table V) (condense : Bool) :
    ((ofTable table).synthesize condense).stats.terminalReturns =
      table.labels.countP fun label => ¬ table.IsContinued label.toList := by
  have hcount := count_stats_ofTable Stats.terminalReturns ⟨rfl, fun _ _ => rfl⟩ id (fun _ => rfl)
    table condense
  simpa only [Stats.erased, id, decide_not] using hcount

/-- Only the decision of the empty table has a miss. -/
theorem misses_ofTable (table : Table V) (condense : Bool) :
    ((ofTable table).synthesize condense).stats.misses = if table.isEmpty then 1 else 0 := by
  have hempty : table.isEmpty ↔ table.entries = #[] := Array.isEmpty_iff
  split
  · rename_i h
    rw [synthesize_of_entries_eq_empty (hempty.1 h)]
    rfl
  · rename_i h
    have hcount := count_stats_synthesize_eq_countP Stats.misses
      ⟨rfl, fun _ _ => rfl⟩ (fun _ => rfl) (ofTable table) condense
    refine hcount.trans (List.countP_eq_zero.2 fun entry hentry hmiss => ?_)
    rw [Bool.and_eq_true, Bool.not_eq_true'] at hmiss
    have hterminal := isTerminal_of_node? (fun hnil => h (hempty.2 hnil))
      (node?_of_mem_preorder hentry) hmiss.1
    simp [hterminal] at hmiss

end Trie

/-- **Statistics account for every node and every label.** In the decision of the trie of a table
every edge of the trie is a case or a test, and every node that is no leaf a branch or a test.
Labels that another label properly begins with are found early, all others at the end of a path, and
only the decision of the empty table has a miss. Runs change nothing about it. -/
theorem stats_account (table : Table V) (condense : Bool) :
    let trie := Trie.ofTable table
    let stats := (trie.synthesize condense).stats
    stats.dispatchCases + stats.condensedTerms + 1 = trie.size ∧
      stats.dispatches + stats.condensedTerms =
        Set.ncard {path | ∃ n, trie.node? path = some n ∧ ¬ n.isLeaf} ∧
      stats.earlyReturns = table.labels.countP (fun label => table.IsContinued label.toList) ∧
      stats.terminalReturns = table.labels.countP (fun label => ¬ table.IsContinued label.toList) ∧
      stats.misses = (if table.isEmpty then 1 else 0) ∧
      stats.earlyReturns = (trie.synthesize !condense).stats.earlyReturns ∧
      stats.terminalReturns = (trie.synthesize !condense).stats.terminalReturns ∧
      stats.earlyReturns + stats.terminalReturns = table.size := by
  have hcases := Trie.count_stats_synthesize Stats.dispatchCases
    ⟨rfl, fun _ _ => rfl⟩ (Trie.ofTable table) condense
  have hbranches := Trie.count_stats_synthesize_eq_countP Stats.dispatches
    ⟨rfl, fun _ _ => rfl⟩ (fun _ => rfl) (Trie.ofTable table) condense
  refine ⟨?edges, hbranches.trans (Trie.ncard_not_isLeaf table).symm,
    Trie.earlyReturns_ofTable table condense, Trie.terminalReturns_ofTable table condense,
    Trie.misses_ofTable table condense, ?_, ?_, ?labels⟩
  case edges =>
    refine (congrArg (· + 1) hcases).trans ((Node.sum_length_children_preorder _).trans ?_)
    rw [Trie.ofTable_eq_insertAll]
    exact (Trie.numbered_insertAll table.fold _).count_root
  case labels =>
    rw [Trie.earlyReturns_ofTable, Trie.terminalReturns_ofTable, ← Table.length_labels,
      List.length_eq_countP_add_countP fun label => table.IsContinued label.toList]
    simp
  · rw [Trie.earlyReturns_ofTable, Trie.earlyReturns_ofTable]
  · rw [Trie.terminalReturns_ofTable, Trie.terminalReturns_ofTable]

end Lexicon
