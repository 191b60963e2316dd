import Lexicon.Proofs.Trie.Chain
import Lexicon.Proofs.Trie.Contents
import Lexicon.Proofs.Trie.Lengths

/-!
# Runs are maximal

Below a node there is a run exactly if the node and its only child leave no choice, and then it is
the one that goes on as far as it can (`runs_maximal`): behind its last node comes nothing, or that
node ends a label, or what follows it branches.

`Node.IsMaximalRun` says this of any run over paths and children alone. A node has at most one such
run (`Node.IsMaximalRun.unique`).
-/

namespace Lexicon

open LengthRange (limit)

universe u

variable {V : Type u}

namespace Node

/-- The run leads from the node as far as there is no choice. -/
structure IsMaximalRun (n : Node V) (run : Run V) : Prop where
  /-- The node and its only child leave no choice. -/
  starts : n.payload = none ∧ ∃ m, n.children = [m] ∧ m.payload = none ∧ ∃ k, m.children = [k]
  /-- The run has a character. -/
  chars_ne_nil : run.chars ≠ []
  /-- Its characters lead to the node where it stops. -/
  follow?_eq : n.follow? run.chars = some run.stop
  /-- The nodes on the way leave no choice. -/
  between : ∀ path m, path ≠ [] → path <+: run.chars → path ≠ run.chars →
    n.follow? path = some m → m.payload = none ∧ ∃ k, m.children = [k]
  /-- Where it stops nothing follows, or a label ends, or the node behind branches. -/
  stops : run.stop.children = [] ∨
    ∃ k, run.stop.children = [k] ∧ (run.stop.isTerminal ∨ 1 < k.children.length)

/-! ### Chains of a node -/

namespace Chain

variable {n m stop stop' : Node V} {cs cs' path : List Char}

theorem eq_of_nil (h : Chain n [] stop) : n = stop := by
  cases h
  rfl

/-- On the way along a chain there is no choice. -/
theorem between (h : Chain n cs stop) (hbegins : path <+: cs) (hne : path ≠ cs)
    (hfollow : n.follow? path = some m) : m.payload = none ∧ ∃ k, m.children = [k] := by
  induction h generalizing path with
  | nil => exact absurd (List.prefix_nil.1 hbegins) hne
  | @cons n k stop cs hpayload hchildren _ ih =>
    cases path with
    | nil =>
      obtain rfl := Option.some.inj hfollow
      exact ⟨hpayload, k, hchildren⟩
    | cons c path =>
      obtain ⟨rfl, hrest⟩ := List.cons_prefix_cons.1 hbegins
      rw [follow?_char_cons hchildren] at hfollow
      exact ih hrest (fun heq => hne (by rw [heq])) hfollow

/-- Of two chains from a node one goes on from where the other stops. -/
theorem exists_eq_append_or (h : Chain n cs stop) (h' : Chain n cs' stop') :
    (∃ rest, cs' = cs ++ rest ∧ Chain stop rest stop') ∨
      ∃ rest, cs = cs' ++ rest ∧ Chain stop' rest stop := by
  induction h generalizing cs' with
  | nil n => exact .inl ⟨cs', rfl, h'⟩
  | @cons n k stop cs hpayload hchildren htail ih =>
    cases h' with
    | nil => exact .inr ⟨_, rfl, .cons hpayload hchildren htail⟩
    | cons _ hchildren' htail' =>
      obtain rfl := List.singleton_inj.1 (hchildren.symm.trans hchildren')
      rcases ih htail' with ⟨rest, rfl, hrest⟩ | ⟨rest, rfl, hrest⟩
      · exact .inl ⟨rest, rfl, hrest⟩
      · exact .inr ⟨rest, rfl, hrest⟩

end Chain

/-- A path all of whose nodes leave no choice is a chain. -/
private theorem chain_of_between {n stop : Node V} {cs : List Char} (h : n.follow? cs = some stop)
    (hbetween : ∀ path m, path <+: cs → path ≠ cs → n.follow? path = some m →
      m.payload = none ∧ ∃ k, m.children = [k]) : Chain n cs stop := by
  induction cs generalizing n with
  | nil =>
    obtain rfl := Option.some.inj h
    exact .nil n
  | cons c rest ih =>
    obtain ⟨hpayload, k, hchildren⟩ := hbetween [] n List.nil_prefix (by simp) rfl
    rw [follow?_cons, child?_of_children_eq hchildren] at h
    split at h
    · rename_i hc
      subst hc
      refine .cons hpayload hchildren (ih h fun path m hbegins hne hfollow => ?_)
      refine hbetween (k.char :: path) m (List.cons_prefix_cons.2 ⟨rfl, hbegins⟩) (by simpa) ?_
      rwa [follow?_char_cons hchildren]
    · simp at h

/-! ### Maximal runs -/

namespace IsMaximalRun

variable {n : Node V} {run run' : Run V}

theorem chain (h : n.IsMaximalRun run) : Chain n run.chars run.stop := by
  refine chain_of_between h.follow?_eq fun path m hbegins hne hfollow => ?_
  cases path with
  | nil =>
    obtain rfl := Option.some.inj hfollow
    obtain ⟨hpayload, k, hchildren, -⟩ := h.starts
    exact ⟨hpayload, k, hchildren⟩
  | cons c rest => exact h.between _ m (by simp) hbegins hne hfollow

/-- What goes on without a choice from where a maximal run stops goes nowhere, or to a branch. -/
private theorem eq_nil_of_chain (h : n.IsMaximalRun run) {stop : Node V} {rest : List Char}
    (hstop : stop.children.length ≤ 1) (hchain : Chain run.stop rest stop) : rest = [] := by
  cases hchain with
  | nil => rfl
  | @cons _ k _ cs hpayload hchildren htail =>
    exfalso
    have hterm : ¬ run.stop.isTerminal := by simp [isTerminal, hpayload]
    obtain hnil | ⟨k', hk', hstops⟩ := h.stops
    · simp [hnil] at hchildren
    · obtain rfl := List.singleton_inj.1 (hchildren.symm.trans hk')
      have hbranch := hstops.resolve_left hterm
      cases htail with
      | nil => omega
      | cons _ hone _ => simp [hone] at hbranch

theorem length_children_stop_le (h : n.IsMaximalRun run) : run.stop.children.length ≤ 1 := by
  obtain hnil | ⟨k, hk, -⟩ := h.stops
  · simp [hnil]
  · simp [hk]

/-- A maximal run that goes on from where another one stops is the same. -/
private theorem eq_of_chain (h : n.IsMaximalRun run) (h' : n.IsMaximalRun run') {rest : List Char}
    (hchars : run'.chars = run.chars ++ rest) (hrest : Chain run.stop rest run'.stop) :
    run = run' := by
  obtain rfl := h.eq_nil_of_chain h'.length_children_stop_le hrest
  have hstop := hrest.eq_of_nil
  obtain ⟨chars, stop⟩ := run
  obtain ⟨chars', stop'⟩ := run'
  rw [Run.mk.injEq]
  exact ⟨by simpa using hchars.symm, hstop⟩

/-- **There is only one maximal run** from a node. -/
theorem unique (h : n.IsMaximalRun run) (h' : n.IsMaximalRun run') : run = run' := by
  rcases h.chain.exists_eq_append_or h'.chain with ⟨rest, hchars, hrest⟩ | ⟨rest, hchars, hrest⟩
  · exact h.eq_of_chain h' hchars hrest
  · exact (h'.eq_of_chain h hchars hrest).symm

end IsMaximalRun

/-- A run of a node that does not branch stops where it has to. -/
theorem stops_spine {n : Node V} (h : n.children.length ≤ 1) :
    n.spine.stop.children = [] ∨
      ∃ k, n.spine.stop.children = [k] ∧ (n.spine.stop.isTerminal ∨ 1 < k.children.length) := by
  induction n using Node.induction with
  | step n ih =>
    obtain ⟨id, c, payload, children⟩ := n
    match children with
    | [] => exact .inl rfl
    | [m] =>
      rw [spine]
      split
      · rename_i hstops
        rw [Bool.or_eq_true, decide_eq_true_iff] at hstops
        exact .inr ⟨m, rfl, hstops⟩
      · rename_i hgo
        simp only [Bool.or_eq_true, decide_eq_true_iff, not_or] at hgo
        exact ih m (by simp) (Nat.not_lt.1 hgo.2)
    | m :: k :: rest => simp at h

theorem canCondense_iff {n : Node V} :
    n.canCondense ↔
      n.payload = none ∧ ∃ m, n.children = [m] ∧ m.payload = none ∧ ∃ k, m.children = [k] := by
  rw [canCondense, Bool.and_eq_true, isLink_iff]
  constructor
  · rintro ⟨⟨hpayload, m, hchildren⟩, hall⟩
    rw [hchildren] at hall
    exact ⟨hpayload, m, hchildren, isLink_iff.1 (by simpa using hall)⟩
  · rintro ⟨hpayload, m, hchildren, hm⟩
    refine ⟨⟨hpayload, m, hchildren⟩, ?_⟩
    rw [hchildren]
    simpa using isLink_iff.2 hm

theorem isMaximalRun_of_run?_eq_some {n : Node V} {run : Run V} (h : n.run? = some run) :
    n.IsMaximalRun run := by
  have hcan : n.canCondense := by rw [← isSome_run?, h]; rfl
  obtain ⟨hpayload, m, hchildren, hpayload', k, hchildren'⟩ := canCondense_iff.1 hcan
  have hspine : m.spine = run := by
    rw [run?, if_pos hcan, hchildren] at h
    exact Option.some.inj h
  obtain ⟨hchain, hne⟩ := chain_of_run?_eq_some h
  exact
    { starts := ⟨hpayload, m, hchildren, hpayload', k, hchildren'⟩
      chars_ne_nil := hne
      follow?_eq := hchain.follow?_eq
      between := fun _ _ _ hbegins hne hfollow => hchain.between hbegins hne hfollow
      stops := hspine ▸ stops_spine (by simp [hchildren']) }

/-- **The run of a node is the maximal one.** -/
theorem run?_eq_some_iff {n : Node V} {run : Run V} : n.run? = some run ↔ n.IsMaximalRun run := by
  refine ⟨isMaximalRun_of_run?_eq_some, fun h => ?_⟩
  obtain ⟨run', hrun'⟩ : ∃ run', n.run? = some run' := by
    rw [← Option.isSome_iff_exists, isSome_run?]
    exact canCondense_iff.2 h.starts
  rw [hrun', (isMaximalRun_of_run?_eq_some hrun').unique h]

end Node

/-- The labels through a node where a run starts go on along the run. -/
theorem Trie.append_chars_isPrefix {table : Table V} {path : List Char} {n : Node V}
    (h : (ofTable table).node? path = some n) {run : Run V} (hrun : n.run? = some run)
    {entry : Entry V} (hentry : entry ∈ table.entries) (hlabel : path <+: entry.label.toList) :
    path ++ run.chars <+: entry.label.toList := by
  obtain ⟨rest, hrest⟩ := hlabel
  have hlookup := (lookup?_eq_some_iff h).2 ⟨entry, hentry, hrest.symm, rfl⟩
  obtain ⟨rest', rfl⟩ := (Node.chain_of_run?_eq_some hrun).1.exists_eq_append
    (Option.isSome_iff_exists.2 ⟨_, hlookup⟩)
  exact ⟨rest', by rw [← hrest, List.append_assoc]⟩

/-- Some label goes through the node where a run stops. -/
theorem Trie.exists_entry_of_run?_eq_some {table : Table V} {path : List Char} {n : Node V}
    (h : (ofTable table).node? path = some n) {run : Run V} (hrun : n.run? = some run) :
    ∃ entry ∈ table.entries, ∃ rest, entry.label.toList = path ++ (run.chars ++ rest) := by
  obtain ⟨hchain, hne⟩ := Node.chain_of_run?_eq_some hrun
  have hvalid := valid_of_node? h
  obtain ⟨rest, hrest⟩ := Node.exists_lookup?_isSome (hchain.valid hvalid)
    (hchain.isTerminal_of_isLeaf hvalid hne)
  rw [← hchain.lookup?_append] at hrest
  obtain ⟨entry, hentry, hlabel, -⟩ := exists_entry_of_isSome h hrest
  exact ⟨entry, hentry, rest, hlabel⟩

/-- **Runs are maximal.** Below a node of a trie there is a run exactly if no label ends at the node
and at its child, and each has one child only. The run is then the one that goes on as far as it can:

* its tests are at the offsets from that of the node on, without gaps, and spell the path to where
  it stops,
* it stops at a leaf exactly if it says so, and then a label ends there,
* all labels through the node go through the node where it stops, and where the lengths of these
  labels are counted the offsets of the run are, up to the one behind it. -/
theorem runs_maximal {table : Table V} {path : List Char} {n : Node V}
    (h : (Trie.ofTable table).node? path = some n) :
    (n.run?.isSome ↔ n.payload = none ∧
      ∃ m, n.children = [m] ∧ m.payload = none ∧ ∃ k, m.children = [k]) ∧
    (n.run?.isSome ↔ n.canCondense) ∧
    (∀ run, n.run? = some run ↔ n.IsMaximalRun run) ∧
    ∀ run index, n.run? = some run →
      (run.tests index).map CharTest.offset = List.range' index run.length ∧
      n.follow? ((run.tests index).map CharTest.char) = some run.stop ∧
      (run.endsAtLeaf ↔ run.stop.children = []) ∧
      (run.endsAtLeaf → run.stop.isTerminal) ∧
      (∀ entry ∈ table.entries, path <+: entry.label.toList →
        path ++ run.chars <+: entry.label.toList) ∧
      ((∀ entry ∈ table.entries, ∀ rest, entry.label.toList = path ++ rest →
        index + rest.length ≤ limit) → index + run.length ≤ limit) := by
  refine ⟨?_, ?_, fun run => Node.run?_eq_some_iff, fun run index hrun => ⟨?_, ?_, ?_, ?_, ?_, ?_⟩⟩
  · rw [Node.isSome_run?]
    exact Node.canCondense_iff
  · rw [Node.isSome_run?]
  · exact CharTest.map_offset_consecutive index run.chars
  · rw [Run.tests, CharTest.map_char_consecutive]
    exact (Node.chain_of_run?_eq_some hrun).1.follow?_eq
  · rw [Run.endsAtLeaf, Node.isLeaf, List.isEmpty_iff]
  · obtain ⟨hchain, hne⟩ := Node.chain_of_run?_eq_some hrun
    exact hchain.isTerminal_of_isLeaf (Trie.valid_of_node? h) hne
  · exact fun entry => Trie.append_chars_isPrefix h hrun
  · intro hcounted
    obtain ⟨entry, hentry, rest, hlabel⟩ := Trie.exists_entry_of_run?_eq_some h hrun
    have hlength := hcounted entry hentry _ hlabel
    rw [List.length_append] at hlength
    have hrunLength : run.length = run.chars.length := rfl
    omega

/-- Below the root of the trie of three labels the run stops where the shortest ends, though only
one character goes on from there. -/
theorem runs_maximal_abcd : ∃ (table : Table Nat) (n : Node Nat) (run : Run Nat),
    table.entries = #[⟨"abcd", 0⟩, ⟨"abcdef", 1⟩, ⟨"abcdeg", 2⟩] ∧
    (Trie.ofTable table).node? [] = some n ∧ n.run? = some run ∧ n.IsMaximalRun run ∧
    run.tests 0 = [⟨0, 'a'⟩, ⟨1, 'b'⟩, ⟨2, 'c'⟩, ⟨3, 'd'⟩] ∧ run.stop.isTerminal ∧
    ¬ run.endsAtLeaf := by
  let table : Table Nat :=
    ⟨.ordinal, #[⟨"abcd", 0⟩, ⟨"abcdef", 1⟩, ⟨"abcdeg", 2⟩], by decide⟩
  have hcheck : (Trie.ofTable table).root.run?.any fun run =>
      run.tests 0 = [⟨0, 'a'⟩, ⟨1, 'b'⟩, ⟨2, 'c'⟩, ⟨3, 'd'⟩] ∧ run.stop.isTerminal ∧
        ¬ run.endsAtLeaf := by
    decide +kernel
  obtain ⟨run, hrun, hfacts⟩ := (Option.any_eq_true ..).1 hcheck
  obtain ⟨-, -, hmaximal, -⟩ := runs_maximal (rfl : (Trie.ofTable table).node? [] = some _)
  exact ⟨table, _, run, rfl, rfl, hrun, (hmaximal run).1 hrun, by simpa using hfacts⟩

end Lexicon
