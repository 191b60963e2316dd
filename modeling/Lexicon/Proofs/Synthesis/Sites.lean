import Lexicon.Decision.Routes
import Lexicon.Proofs.Matching
import Lexicon.Proofs.Narrowing

/-!
# What stands where in a synthesized decision

`Node.Site condense n index known part` lists everything that a part of a synthesized decision can
be: the part belongs to node `n`, which is reached after `index` characters, and an input that comes
to it has one of the lengths in `known`. Either the part is a guard, with what it guards behind it,
or it is a run, a payload or a branch, and then `known` is exactly what that needs.

A turn leads from a site to a site of the node that the characters of the turn lead to, and leaves
of the known lengths those that the turn admits (`Site.turn`). So a route from the root leads to a
site of the node that its characters lead to, and the lengths known there are those of the route
(`Trie.exists_site`).
-/

namespace Lexicon

open LengthCheck (narrowing)
open LengthRange (limit)

universe u

variable {V : Type u}

/-- Past the tests of a run its characters are read. -/
theorem Run.chars_spelled (run : Run V) (index : Nat) :
    (Turn.spelled (run.tests index)).chars = run.chars :=
  CharTest.map_char_consecutive ..

namespace Node

/-- A label that goes through the start of a run is at least as long as the run reaches. -/
theorem run_length_le {condense : Bool} {n : Node V} {run : Run V}
    (h : n.firstRun? condense = some run) {path : List Char} (hpath : (n.lookup? path).isSome) :
    run.length ≤ path.length := by
  obtain ⟨rest, rfl⟩ := (chain_of_firstRun?_eq_some h).1.exists_eq_append hpath
  rw [List.length_append]
  exact Nat.le_add_right ..

/-! ### Nodes that wait for their labels -/

/-- The decision of the node is reached by all inputs that are labels through the node, with the
lengths `known` still possible. -/
structure Open (n : Node V) (index : Nat) (known : LengthRange) : Prop where
  valid : n.Valid
  isTerminal_of_isLeaf : n.isLeaf → n.isTerminal
  reached : ∀ path, (n.lookup? path).isSome → n.Reached index known (index + path.length)

namespace Open

variable {condense : Bool} {n m : Node V} {index : Nat} {known needed : LengthRange} {run : Run V}

theorem exists_reached (h : n.Open index known) :
    ∃ path, (n.lookup? path).isSome ∧ n.Reached index known (index + path.length) := by
  obtain ⟨path, hpath⟩ := exists_lookup?_isSome h.valid h.isTerminal_of_isLeaf
  exact ⟨path, hpath, h.reached path hpath⟩

theorem withinLimit (h : n.Open index known) : n.WithinLimit index := by
  obtain ⟨_, _, hreached⟩ := h.exists_reached
  exact hreached.withinLimit

theorem min_lt (h : n.Open index known) : known.min < limit := by
  obtain ⟨_, _, hreached⟩ := h.exists_reached
  exact hreached.min_lt

/-- The node stays open if less is known, as long as it allows the labels. -/
theorem narrow (h : n.Open index known) (hlt : needed.min < limit)
    (hallows : ∀ path, (n.lookup? path).isSome → needed.Allows (index + path.length)) :
    n.Open index needed where
  valid := h.valid
  isTerminal_of_isLeaf := h.isTerminal_of_isLeaf
  reached path hpath := { h.reached path hpath with min_lt := hlt, allows := hallows path hpath }

/-- Through the node where a run stops go the labels that go through its start. -/
theorem stop (h : n.Open index known) (hrun : n.firstRun? condense = some run) :
    run.stop.Open (index + run.length) known := by
  obtain ⟨hchain, hne⟩ := chain_of_firstRun?_eq_some hrun
  refine ⟨hchain.valid h.valid, hchain.isTerminal_of_isLeaf h.valid hne, fun path hpath => ?_⟩
  have hlabel : (n.lookup? (run.chars ++ path)).isSome := by rwa [hchain.lookup?_append]
  have hreached := h.reached _ hlabel
  rw [List.length_append, ← Nat.add_assoc] at hreached
  exact {
    valid := hchain.valid h.valid
    withinLimit := h.withinLimit.chain hchain
    index_le := Nat.le_add_right ..
    min_lt := h.min_lt
    allows := hreached.allows }

/-- Behind a branch its children are open to longer inputs. -/
theorem child (h : n.Open index (n.lengths (.exact index))) (hm : m ∈ n.children) :
    m.Open (index + 1) ((n.lengths (.exact index)).atLeast (index + 1)) := by
  refine ⟨h.valid.child hm, h.valid.isTerminal hm, fun path hpath => ?_⟩
  have hlabel : (n.lookup? (m.char :: path)).isSome := by
    rwa [lookup?_cons, child?_char h.valid.ascending hm]
  have hreached := h.reached _ hlabel
  rw [List.length_cons, Nat.add_comm path.length, ← Nat.add_assoc] at hreached
  -- the range of the branch is known already, so nothing is left to check
  refine hreached.child hm ?_ (by omega)
  rw [LengthCheck.narrowing_self]
  rfl

/-! ### What each kind of part needs -/

/-- A label ends at the leaf to which a run leads. -/
theorem exists_payload_stop (h : n.Open index known) (hrun : n.firstRun? condense = some run)
    (hends : run.endsAtLeaf) : ∃ payload, run.stop.payload = some payload := by
  obtain ⟨hchain, hne⟩ := chain_of_firstRun?_eq_some hrun
  exact Option.isSome_iff_exists.1 (hchain.isTerminal_of_isLeaf h.valid hne hends)

/-- The label that a run completes. -/
theorem isSome_lookup?_run (h : n.Open index known) (hrun : n.firstRun? condense = some run)
    (hends : run.endsAtLeaf) : (n.lookup? run.chars).isSome := by
  obtain ⟨hchain, -⟩ := chain_of_firstRun?_eq_some hrun
  obtain ⟨payload, hpayload⟩ := h.exists_payload_stop hrun hends
  rw [← List.append_nil run.chars, hchain.lookup?_append, lookup?_nil, hpayload]
  rfl

theorem runToLeaf (h : n.Open index known) (hrun : n.firstRun? condense = some run)
    (hends : run.endsAtLeaf) :
    n.Open index (.exact (index + run.length)) ∧
      (LengthRange.exact (index + run.length)).Within known := by
  have hreached := h.reached _ (h.isSome_lookup?_run hrun hends)
  have hlt := hreached.run_lt hrun
  refine ⟨h.narrow hlt fun path hpath => ?_, ?_⟩
  · obtain ⟨hchain, -⟩ := chain_of_firstRun?_eq_some hrun
    obtain ⟨rest, rfl⟩ := hchain.exists_eq_append hpath
    rw [hchain.lookup?_append, lookup?_of_isLeaf hends] at hpath
    have hrest : rest = [] := by
      by_contra hne
      simp [hne] at hpath
    rw [LengthRange.allows_exact hlt, hrest, List.append_nil, Run.length]
  · exact .of_allows hreached.allows hreached.allows (Nat.le_refl _) hlt

theorem runOn (h : n.Open index known) (hrun : n.firstRun? condense = some run) :
    n.Open index (known.atLeast (index + run.length)) ∧
      (known.atLeast (index + run.length)).Within known := by
  obtain ⟨path, hpath, hreached⟩ := h.exists_reached
  have hlt := hreached.run_lt hrun
  have hwithin : (known.atLeast (index + run.length)).Within known :=
    .of_atLeast hreached.allows hreached.min_lt (Nat.add_le_add_left (run_length_le hrun hpath) index) hlt
  refine ⟨h.narrow hwithin.min_lt fun path hpath => ?_, hwithin⟩
  exact LengthRange.allows_atLeast.2 ⟨(h.reached path hpath).allows,
    Nat.add_le_add_left (run_length_le hrun hpath) index⟩

/-- The range of the labels through the node, with labels of its least and greatest length. -/
theorem exists_labels (h : n.Open index known) :
    ∃ shortest longest, (n.lookup? shortest).isSome ∧ (n.lookup? longest).isSome ∧
      n.lengths (.exact index) = ⟨index + shortest.length, index + longest.length⟩ ∧
      ∀ path, (n.lookup? path).isSome →
        shortest.length ≤ path.length ∧ path.length ≤ longest.length := by
  obtain ⟨_, _, ⟨⟨shortest, hshortest, rfl⟩, hlo⟩, ⟨⟨longest, hlongest, rfl⟩, hhi⟩, hrange, -⟩ :=
    exists_lengths_exact h.valid h.isTerminal_of_isLeaf h.withinLimit
  refine ⟨shortest, longest, hshortest, hlongest, hrange, fun path hpath => ?_⟩
  exact ⟨hlo ⟨path, hpath, rfl⟩, hhi ⟨path, hpath, rfl⟩⟩

theorem lengths (h : n.Open index known) :
    n.Open index (n.lengths (.exact index)) ∧ (n.lengths (.exact index)).Within known := by
  obtain ⟨shortest, longest, hshortest, hlongest, hrange, hbetween⟩ := h.exists_labels
  have hlt : index + longest.length < limit := h.withinLimit longest hlongest
  obtain ⟨hle, -⟩ := hbetween longest hlongest
  rw [hrange]
  refine ⟨h.narrow (by change index + shortest.length < limit; omega) fun path hpath => ?_, ?_⟩
  · obtain ⟨hlo, hhi⟩ := hbetween path hpath
    exact ⟨Nat.add_le_add_left hlo index, .inl (Nat.add_le_add_left hhi index)⟩
  · exact .of_allows (h.reached shortest hshortest).allows (h.reached longest hlongest).allows
      (Nat.add_le_add_left hle index) hlt

end Open

/-! ### Sites -/

/-- What stands behind the guard of a node: a run, the payload at a leaf or a branch, with the
lengths that it needs. -/
inductive Behind (condense : Bool) : Node V → Nat → LengthRange → Decision V → Prop
  | runToLeaf {n : Node V} {index : Nat} {run : Run V} (run_eq : n.firstRun? condense = some run)
      (ends : run.endsAtLeaf) : Behind condense n index (.exact (index + run.length))
        (.spell (run.tests index) (.ofPayload run.stop.payload))
  | runOn {n : Node V} {index : Nat} {run : Run V} {known : LengthRange}
      (run_eq : n.firstRun? condense = some run) (goesOn : ¬ run.endsAtLeaf)
      (le : index + run.length ≤ known.min) : Behind condense n index known
        (.spell (run.tests index) (run.stop.branch condense (index + run.length) known))
  | leaf {n : Node V} {index : Nat} {payload : V} (isLeaf : n.isLeaf)
      (payload_eq : n.payload = some payload) :
      Behind condense n index (.exact index) (.accept payload)
  | branch {n : Node V} {index : Nat} (goesOn : ¬ n.isLeaf) :
      Behind condense n index (n.lengths (.exact index)) (.dispatch index n.payload
        (n.children.map fun m => (m.char, m.decision condense (index + 1)
          ((n.lengths (.exact index)).atLeast (index + 1)))))

/-- A part of a synthesized decision that belongs to a node, where an input of one of the lengths in
`known` may come. The upper bound that a guard asks for is the length of a label. -/
inductive Site (condense : Bool) (n : Node V) (index : Nat) (known : LengthRange) :
    Decision V → Prop
  | guarded {needed : LengthRange} {check : LengthCheck} {next : Decision V}
      (isOpen : n.Open index known) (check_eq : narrowing known needed = some check)
      (within : needed.Within known)
      (max_attained : needed.max = known.max ∨
        ∃ path, (n.lookup? path).isSome ∧ needed.max = index + path.length)
      (isOpen_needed : n.Open index needed) (behind : Behind condense n index needed next) :
      Site condense n index known (.guard check next)
  | bare {part : Decision V} (isOpen : n.Open index known)
      (behind : Behind condense n index known part) : Site condense n index known part

namespace Site

variable {condense : Bool} {n : Node V} {index : Nat} {known needed : LengthRange}
  {part next : Decision V}

theorem isOpen (h : Site condense n index known part) : n.Open index known := by
  cases h with
  | guarded isOpen => exact isOpen
  | bare isOpen => exact isOpen

/-- A return belongs to a leaf. -/
theorem accept_inv {payload : V} (h : Site condense n index known (.accept payload)) :
    n.isLeaf ∧ n.payload = some payload ∧ known = .exact index := by
  obtain _ | ⟨-, hbehind⟩ := h
  cases hbehind with
  | leaf hleaf hpayload => exact ⟨hleaf, hpayload, rfl⟩

/-- A branch belongs to a node from which labels go on. -/
theorem dispatch_inv {offset : Nat} {onEnd : Option V} {cases : List (Char × Decision V)}
    (h : Site condense n index known (.dispatch offset onEnd cases)) :
    ¬ n.isLeaf ∧ offset = index ∧ onEnd = n.payload ∧ known = n.lengths (.exact index) ∧
      cases.map Prod.fst = n.children.map char := by
  obtain _ | ⟨-, hbehind⟩ := h
  cases hbehind with
  | branch hgoesOn => exact ⟨hgoesOn, rfl, rfl, rfl, by rw [List.map_map]; rfl⟩

/-- The guard of a node stands in front of what it guards, or is left out. -/
theorem of_guarded (h : n.Open index known)
    (hneeded : n.Open index needed ∧ needed.Within known)
    (hmax : needed.max = known.max ∨
      ∃ path, (n.lookup? path).isSome ∧ needed.max = index + path.length)
    (hbehind : Behind condense n index needed next) :
    Site condense n index known (.guarded (narrowing known needed) next) := by
  cases hcheck : narrowing known needed with
  | none =>
    obtain rfl := LengthCheck.narrowing_eq_none_iff.1 hcheck
    exact .bare h hbehind
  | some check => exact .guarded h hcheck hneeded.2 hmax hneeded.1 hbehind

theorem of_branch (h : n.Open index known) :
    Site condense n index known (n.branch condense index known) := by
  by_cases hleaf : n.isLeaf
  · obtain ⟨payload, hpayload⟩ := Option.isSome_iff_exists.1 (h.isTerminal_of_isLeaf hleaf)
    have hlabel : (n.lookup? []).isSome := by
      rw [lookup?_nil, hpayload]
      rfl
    have hneeded := h.lengths
    rw [lengths_of_isLeaf hleaf] at hneeded
    rw [branch_of_payload_eq_some hleaf hpayload, lengths_of_isLeaf hleaf]
    exact of_guarded h hneeded (.inr ⟨[], hlabel, rfl⟩) (.leaf hleaf hpayload)
  · obtain ⟨_, longest, _, hlongest, hrange, -⟩ := h.exists_labels
    rw [branch_of_not_isLeaf hleaf]
    refine of_guarded h h.lengths (.inr ⟨longest, hlongest, ?_⟩) (.branch hleaf)
    rw [hrange]

theorem of_decision (h : n.Open index known) :
    Site condense n index known (n.decision condense index known) := by
  cases hrun : n.firstRun? condense with
  | none =>
    rw [decision_of_firstRun?_eq_none hrun]
    exact of_branch h
  | some run =>
    by_cases hends : run.endsAtLeaf
    · rw [decision_of_endsAtLeaf hrun hends]
      exact of_guarded h (h.runToLeaf hrun hends)
        (.inr ⟨run.chars, h.isSome_lookup?_run hrun hends, rfl⟩) (.runToLeaf hrun hends)
    · rw [decision_of_not_endsAtLeaf hrun hends]
      exact of_guarded h (h.runOn hrun) (.inl rfl)
        (.runOn hrun hends (Nat.le_max_right ..))

/-! ### Turns -/

/-- **A turn leads from a site to a site**: that of the node to which the characters of the turn
lead. There the lengths are known that were known before and that the turn admits. -/
theorem turn {turn : Turn} (h : Site condense n index known part) (hturn : part.Turns turn next) :
    ∃ m known', n.follow? turn.chars = some m ∧
      Site condense m (index + turn.chars.length) known' next ∧
      ∀ length, known'.Allows length ↔ known.Allows length ∧ turn.admits length := by
  cases h with
  | @guarded needed check _ isOpen hcheck hwithin _ isOpen_needed hbehind =>
    cases hturn with
    | pass =>
      refine ⟨n, needed, rfl, .bare isOpen_needed hbehind, fun length => ?_⟩
      rw [hwithin.allows_iff, hcheck]
      rfl
  | bare isOpen hbehind =>
    cases hbehind with
    | @runToLeaf run hrun hends =>
      cases hturn with
      | spelled =>
        obtain ⟨payload, hpayload⟩ := isOpen.exists_payload_stop hrun hends
        rw [run.chars_spelled, hpayload]
        exact ⟨run.stop, _, (chain_of_firstRun?_eq_some hrun).1.follow?_eq,
          .bare (isOpen.stop hrun) (.leaf hends hpayload), fun length => (and_iff_left rfl).symm⟩
    | @runOn run _ hrun hgoesOn hle =>
      cases hturn with
      | spelled =>
        rw [run.chars_spelled]
        exact ⟨run.stop, known, (chain_of_firstRun?_eq_some hrun).1.follow?_eq,
          of_branch (isOpen.stop hrun), fun length => (and_iff_left rfl).symm⟩
    | leaf => cases hturn
    | branch hgoesOn =>
      cases hturn with
      | choose hcase =>
        rw [List.getElem?_map, Option.map_eq_some_iff] at hcase
        obtain ⟨m, hm, heq⟩ := hcase
        obtain ⟨rfl, rfl⟩ := Prod.mk.inj heq
        have hmem : m ∈ n.children := List.mem_of_getElem? hm
        have hfollow : n.follow? [m.char] = some m := by
          rw [follow?_cons, child?_char isOpen.valid.ascending hmem]
          rfl
        refine ⟨m, _, hfollow, of_decision (isOpen.child hmem), fun length => ?_⟩
        rw [LengthRange.allows_atLeast, Turn.admits, decide_eq_true_iff, Nat.succ_le_iff]

/-- A route leads from a site to a site, of the node to which its characters lead. -/
theorem leadsTo {d : Decision V} {route : Route} (h : Site condense n index known d)
    (hroute : d.LeadsTo route part) :
    ∃ m known', n.follow? route.chars = some m ∧
      Site condense m (index + route.chars.length) known' part ∧
      ∀ length, known'.Allows length ↔ known.Allows length ∧ length ∈ route.lengths := by
  induction hroute generalizing n index known with
  | here d =>
    exact ⟨n, known, rfl, h, fun length => (and_iff_left (Route.mem_lengths_nil length)).symm⟩
  | @onward d next part turn route hturn _ ih =>
    obtain ⟨k, known₁, hfollow₁, hsite₁, hallows₁⟩ := h.turn hturn
    obtain ⟨m, known', hfollow, hsite, hallows⟩ := ih hsite₁
    refine ⟨m, known', ?_, ?_, fun length => ?_⟩
    · rw [Route.chars_cons, follow?_append, hfollow₁]
      exact hfollow
    · rw [Route.chars_cons, List.length_append, ← Nat.add_assoc]
      exact hsite
    · rw [hallows, hallows₁, Route.mem_lengths_cons, and_assoc]

end Site

end Node

namespace Trie

variable {table : Table V} {condense : Bool}

/-- The decision of the empty table is a miss. -/
theorem synthesize_of_entries_eq_empty (h : table.entries = #[]) :
    (ofTable table).synthesize condense = .miss := by
  have hroot : (ofTable table).root = .bare 0 rootChar := by
    rw [ofTable, h]
    rfl
  have hrun : (Node.bare 0 rootChar : Node V).firstRun? condense = none := by
    cases condense <;> rfl
  rw [synthesize, hroot, Node.decision_of_firstRun?_eq_none hrun,
    Node.branch_of_payload_eq_none rfl rfl]

/-- The root of a trie with labels is open to them. -/
theorem open_root (hshort : ∀ entry ∈ table.entries, entry.label.length < limit)
    (hne : table.entries ≠ #[]) : (ofTable table).root.Open 0 .unconstrained where
  valid := valid_root_ofTable table
  isTerminal_of_isLeaf :=
    isTerminal_root_ofTable fun hnil => hne (Array.toList_eq_nil_iff.1 hnil)
  reached _ _ := reached_root hshort _

/-- A synthesized decision belongs to the root of the trie. -/
theorem site_root (hshort : ∀ entry ∈ table.entries, entry.label.length < limit)
    (hne : table.entries ≠ #[]) : Node.Site condense (ofTable table).root 0 .unconstrained
      ((ofTable table).synthesize condense) :=
  .of_decision (open_root hshort hne)

/-- **Every node of a synthesized decision is a site**: of the node of the trie to which the
characters of its route lead, at the offset behind them, with the lengths of the route known. Only
the empty table is compiled to a miss. -/
theorem exists_site (hshort : ∀ entry ∈ table.entries, entry.label.length < limit) {route : Route}
    {part : Decision V} (h : ((ofTable table).synthesize condense).LeadsTo route part) :
    table.entries = #[] ∧ part = .miss ∨
      ∃ n known, (ofTable table).node? route.chars = some n ∧
        Node.Site condense n route.chars.length known part ∧
        ∀ length, known.Allows length ↔ length ∈ route.lengths := by
  by_cases hne : table.entries = #[]
  · rw [synthesize_of_entries_eq_empty hne] at h
    obtain _ | ⟨hturn, -⟩ := h
    · exact .inl ⟨hne, rfl⟩
    · cases hturn
  · obtain ⟨n, known, hfollow, hsite, hallows⟩ :=
      (site_root hshort hne).leadsTo h
    rw [Nat.zero_add] at hsite
    refine .inr ⟨n, known, hfollow, hsite, fun length => ?_⟩
    rw [hallows]
    exact and_iff_right (LengthRange.allows_unconstrained length)

theorem exists_site_of_ne_miss (hshort : ∀ entry ∈ table.entries, entry.label.length < limit)
    {route : Route} {part : Decision V}
    (h : ((ofTable table).synthesize condense).LeadsTo route part) (hne : part ≠ .miss) :
    ∃ n known, (ofTable table).node? route.chars = some n ∧
      Node.Site condense n route.chars.length known part ∧
      ∀ length, known.Allows length ↔ length ∈ route.lengths :=
  (exists_site hshort h).resolve_left fun hmiss => hne hmiss.2

end Trie

end Lexicon
