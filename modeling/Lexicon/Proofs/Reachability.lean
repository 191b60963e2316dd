import Lexicon.Proofs.Decision.Routes
import Lexicon.Proofs.Synthesis.Sites

/-!
# Every node is reached

A label takes every route whose characters it begins with (`Site.routeFrom_of_leadsTo`), and the
characters of its own route are the label (`Site.chars_routeFrom`). So no node of a synthesized
decision is there for nothing, and returns and labels correspond to each other (`no_dead_code`).
-/

namespace Lexicon

open LengthRange (limit)

universe u

variable {V : Type u}

theorem Node.word_add (fold : CaseFold) (cs : List Char) (index k : Nat) :
    Node.word fold cs (index + k) = (Node.word fold cs index).drop k := by
  rw [Node.word, Node.word, ← List.map_drop, List.drop_drop]

theorem Node.word_ordinal (cs : List Char) : Node.word .ordinal cs 0 = cs :=
  List.map_id cs

/-! ### Labels on their way -/

namespace Node

/-- The rest of an input, read from the node at offset `index`, completes a label. -/
structure Completed (n : Node V) (fold : CaseFold) (cs : List Char) (index : Nat) : Prop where
  index_le : index ≤ cs.length
  isSome_lookup? : (n.lookup? (word fold cs index)).isSome

namespace Completed

variable {n m : Node V} {fold : CaseFold} {cs chars rest : List Char} {index : Nat}

theorem length_eq (h : n.Completed fold cs index) :
    index + (word fold cs index).length = cs.length := by
  rw [length_word]
  exact Nat.add_sub_cancel' h.index_le

/-- A label that goes on with some characters is completed from the node to which they lead. -/
theorem follow (h : n.Completed fold cs index) (hword : word fold cs index = chars ++ rest)
    (hfollow : n.follow? chars = some m) :
    m.Completed fold cs (index + chars.length) ∧ word fold cs (index + chars.length) = rest := by
  have hrest : word fold cs (index + chars.length) = rest := by
    rw [word_add, hword, List.drop_left]
  have hlength := h.length_eq
  rw [hword, List.length_append] at hlength
  refine ⟨⟨by omega, ?_⟩, hrest⟩
  rw [hrest, ← lookup?_append_of_follow? hfollow, ← hword]
  exact h.isSome_lookup?

end Completed

namespace Site

variable {condense : Bool} {n : Node V} {index : Nat} {known : LengthRange}
  {d part next : Decision V} {fold : CaseFold} {cs rest : List Char}

/-- A run is passed by what goes on with its characters. -/
private theorem routeFrom_spell (run : Run V) (next : Decision V)
    (hword : word fold cs index = run.chars ++ rest) :
    (Decision.spell (run.tests index) next).routeFrom fold cs.length (cursorAt cs index) =
      .spelled (run.tests index) ::
        next.routeFrom fold cs.length (cursorAt cs (index + run.chars.length)) := by
  rw [Decision.routeFrom, Run.tests, passAll_consecutive, if_pos ⟨rest, hword.symm⟩]

/-- A branch over the children of a node sends what goes on with the character of a child there. -/
private theorem routeFrom_branch (hasc : Ascending n.children) {m : Node V} {i : Nat}
    (hm : n.children[i]? = some m) (hword : word fold cs index = m.char :: rest)
    (hle : index ≤ cs.length) (onEnd : Option V) (f : Node V → Decision V) :
    (Decision.dispatch index onEnd (n.children.map fun k => (k.char, f k))).routeFrom fold cs.length
        (cursorAt cs index) =
      .choose index i m.char :: (f m).routeFrom fold cs.length (cursorAt cs (index + 1)) := by
  have hlt : index < cs.length := by
    have hlength := congrArg List.length hword
    rw [length_word, List.length_cons] at hlength
    omega
  rw [word_eq_cons hlt] at hword
  obtain ⟨hc, -⟩ := List.cons.inj hword
  have hread : (cursorAt cs index).read index = some (cs[index], cursorAt cs (index + 1)) := by
    rw [read_cursorAt (Nat.le_refl index), List.getElem?_eq_getElem hlt, Option.map_some]
  have hcase : (n.children.map fun k => (k.char, f k))[i]? = some (m.char, f m) := by
    rw [List.getElem?_map, hm, Option.map_some]
  have hkeys : ((n.children.map fun k => (k.char, f k)).map Prod.fst).Pairwise (· < ·) := by
    rw [List.map_map]
    exact hasc
  rw [← hc] at hcase ⊢
  refine Decision.routeFrom_dispatch (Nat.ne_of_gt hlt) hread ?_ hcase
  rw [Decision.casePosition?, Bisection.position?_eq_some_iff hkeys, List.getElem?_map, hcase,
    Option.map_some]

/-- The route of a label takes the turn on whose characters the label goes on. -/
theorem routeFrom_of_turns {turn : Turn} (h : Site condense n index known part)
    (hturn : part.Turns turn next) (hlabel : n.Completed fold cs index)
    (hword : word fold cs index = turn.chars ++ rest) :
    part.routeFrom fold cs.length (cursorAt cs index) =
      turn :: next.routeFrom fold cs.length (cursorAt cs (index + turn.chars.length)) := by
  cases h with
  | @guarded _ check _ _ hcheck hwithin _ isOpen_needed _ =>
    cases hturn with
    | pass =>
      -- the label is of a length that the node needs, so the guard admits it
      have hallows := (isOpen_needed.reached _ hlabel.isSome_lookup?).allows
      obtain ⟨-, hadmits⟩ := hwithin.allows_iff.1 hallows
      rw [hcheck, hlabel.length_eq] at hadmits
      change check.admits cs.length at hadmits
      rw [Decision.routeFrom, if_pos hadmits]
      rfl
  | bare isOpen hbehind =>
    cases hbehind with
    | @runToLeaf run =>
      cases hturn with
      | spelled =>
        rw [run.chars_spelled] at hword ⊢
        exact routeFrom_spell run _ hword
    | @runOn run =>
      cases hturn with
      | spelled =>
        rw [run.chars_spelled] at hword ⊢
        exact routeFrom_spell run _ hword
    | leaf => cases hturn
    | branch hgoesOn =>
      cases hturn with
      | choose hcase =>
        rw [List.getElem?_map, Option.map_eq_some_iff] at hcase
        obtain ⟨m, hm, heq⟩ := hcase
        obtain ⟨rfl, rfl⟩ := Prod.mk.inj heq
        exact routeFrom_branch isOpen.valid.ascending hm hword hlabel.index_le _ _

/-- The route of a label ends where the label does, or takes a turn on characters of the label. -/
theorem ends_or_turns (h : Site condense n index known part) (hlabel : n.Completed fold cs index) :
    (word fold cs index = [] ∧ part.routeFrom fold cs.length (cursorAt cs index) = []) ∨
      ∃ turn next rest, part.Turns turn next ∧ word fold cs index = turn.chars ++ rest := by
  obtain ⟨hle, hsome⟩ := hlabel
  cases h with
  | guarded => exact .inr ⟨_, _, _, .pass, rfl⟩
  | bare isOpen hbehind =>
    cases hbehind with
    | @runToLeaf run hrun =>
      obtain ⟨rest, hrest⟩ := (chain_of_firstRun?_eq_some hrun).1.exists_eq_append hsome
      exact .inr ⟨_, _, rest, .spelled, by rw [hrest, run.chars_spelled]⟩
    | @runOn run _ hrun =>
      obtain ⟨rest, hrest⟩ := (chain_of_firstRun?_eq_some hrun).1.exists_eq_append hsome
      exact .inr ⟨_, _, rest, .spelled, by rw [hrest, run.chars_spelled]⟩
    | leaf hleaf =>
      refine .inl ⟨?_, rfl⟩
      by_contra hne
      rw [lookup?_of_isLeaf hleaf, if_neg hne] at hsome
      exact Bool.false_ne_true hsome
    | branch =>
      cases hword : word fold cs index with
      | nil =>
        have hlength : cs.length = index := by
          have hnil := congrArg List.length hword
          rw [length_word, List.length_nil] at hnil
          omega
        exact .inl ⟨rfl, by rw [Decision.routeFrom, if_pos hlength]⟩
      | cons c rest =>
        rw [hword, lookup?_cons] at hsome
        obtain ⟨_, hpayload⟩ := Option.isSome_iff_exists.1 hsome
        obtain ⟨m, hm, -⟩ := Option.bind_eq_some_iff.1 hpayload
        obtain ⟨hmem, rfl⟩ := (child?_eq_some_iff isOpen.valid.ascending).1 hm
        obtain ⟨i, hi⟩ := List.getElem?_of_mem hmem
        have hcase := congrArg (Option.map fun k => (k.char, k.decision condense (index + 1)
          ((n.lengths (.exact index)).atLeast (index + 1)))) hi
        rw [← List.getElem?_map, Option.map_some] at hcase
        exact .inr ⟨_, _, rest, .choose hcase, rfl⟩

/-! ### Labels and routes -/

/-- **The route of a label reads the label**: its characters are those of the label that are left. -/
theorem chars_routeFrom (h : Site condense n index known part)
    (hlabel : n.Completed fold cs index) :
    (part.routeFrom fold cs.length (cursorAt cs index)).chars = word fold cs index := by
  generalize hroute : part.routeFrom fold cs.length (cursorAt cs index) = route
  induction route generalizing n index known part with
  | nil =>
    rcases h.ends_or_turns hlabel with ⟨hword, -⟩ | ⟨turn, next, rest, hturn, hword⟩
    · rw [hword, Route.chars_nil]
    · rw [h.routeFrom_of_turns hturn hlabel hword] at hroute
      simp at hroute
  | cons turn route ih =>
    rcases h.ends_or_turns hlabel with ⟨-, hends⟩ | ⟨turn', next, rest, hturn, hword⟩
    · rw [hends] at hroute
      simp at hroute
    · rw [h.routeFrom_of_turns hturn hlabel hword] at hroute
      obtain ⟨rfl, hnext⟩ := List.cons.inj hroute
      obtain ⟨m, known', hfollow, hsite, -⟩ := h.turn hturn
      obtain ⟨hlabel', hrest⟩ := hlabel.follow hword hfollow
      rw [Route.chars_cons, ih hsite hlabel' hnext, hrest, hword]

/-- **A label takes every route on whose characters it goes on.** -/
theorem routeFrom_of_leadsTo {route : Route} (h : Site condense n index known d)
    (hleads : d.LeadsTo route part) (hlabel : n.Completed fold cs index)
    (hword : word fold cs index = route.chars ++ rest) :
    d.routeFrom fold cs.length (cursorAt cs index) =
      route ++ part.routeFrom fold cs.length (cursorAt cs (index + route.chars.length)) := by
  induction hleads generalizing n index known with
  | here => rfl
  | onward hturn _ ih =>
    rw [Route.chars_cons, List.append_assoc] at hword
    obtain ⟨m, known', hfollow, hsite, -⟩ := h.turn hturn
    obtain ⟨hlabel', hrest⟩ := hlabel.follow hword hfollow
    rw [h.routeFrom_of_turns hturn hlabel hword, ih hsite hlabel' hrest, Route.chars_cons,
      List.length_append, Nat.add_assoc, List.cons_append]

end Site

end Node

/-! ### Returns and labels -/

/-- The node returns the payload: at once, or for an input that ends there. -/
def Decision.Returns (d : Decision V) (payload : V) : Prop :=
  d = .accept payload ∨ ∃ offset cases, d = .dispatch offset (some payload) cases

/-- The route of a label, as it stands in the table, through the decision synthesized for the
table. -/
def Table.routeOf (table : Table V) (condense : Bool) (entry : Entry V) : Route :=
  ((Trie.ofTable table).synthesize condense).route .ordinal entry.label

namespace Trie

variable {table : Table V} {condense : Bool}

/-- A label is completed from the root on. -/
theorem completed_root {entry : Entry V} (h : entry ∈ table.entries) :
    (ofTable table).root.Completed .ordinal entry.label.toList 0 where
  index_le := Nat.zero_le _
  isSome_lookup? := by
    rw [Node.word_ordinal, lookup?_root_ofTable.2 ⟨entry, h, rfl, rfl⟩]
    rfl

variable (hshort : ∀ entry ∈ table.entries, entry.label.length < limit)

include hshort

theorem chars_routeOf {entry : Entry V} (h : entry ∈ table.entries) :
    (table.routeOf condense entry).chars = entry.label.toList := by
  have hne : table.entries ≠ #[] := Array.ne_empty_of_mem h
  exact ((site_root hshort hne).chars_routeFrom (completed_root h)).trans (Node.word_ordinal _)

/-- Distinct labels have distinct routes. -/
theorem routeOf_injective {entry other : Entry V} (h : entry ∈ table.entries)
    (hother : other ∈ table.entries)
    (heq : table.routeOf condense entry = table.routeOf condense other) : entry = other := by
  have hlabel : entry.label = other.label := by
    rw [← String.toList_inj, ← chars_routeOf hshort h, heq, chars_routeOf hshort hother]
  exact List.inj_on_of_nodup_map table.nodup (Array.mem_toList_iff.2 h)
    (Array.mem_toList_iff.2 hother) hlabel

/-- A label takes every route on whose characters it goes on. -/
theorem routeOf_of_leadsTo {route : Route} {part : Decision V}
    (h : ((ofTable table).synthesize condense).LeadsTo route part) {entry : Entry V}
    (hentry : entry ∈ table.entries) {rest : List Char}
    (hlabel : entry.label.toList = route.chars ++ rest) :
    table.routeOf condense entry = route ++ part.routeFrom .ordinal entry.label.toList.length
      (cursorAt entry.label.toList route.chars.length) := by
  have hne : table.entries ≠ #[] := Array.ne_empty_of_mem hentry
  have hroute := (site_root hshort hne).routeFrom_of_leadsTo h (completed_root hentry)
    ((Node.word_ordinal _).trans hlabel)
  rw [Nat.zero_add] at hroute
  exact hroute

/-- The evaluation of a label ends with its payload. -/
theorem exists_answer? (condense : Bool) {entry : Entry V} (h : entry ∈ table.entries) :
    ∃ part, ((ofTable table).synthesize condense).LeadsTo (table.routeOf condense entry) part ∧
      part.answer? entry.label.length = some entry.payload := by
  obtain ⟨part, hleads, hanswer⟩ :=
    ((ofTable table).synthesize condense).exists_leadsTo_route .ordinal entry.label
  have hlookup : (ofTable table).root.lookup? (CaseFold.ordinal.applyInput entry.label) =
      some entry.payload :=
    lookup?_root_ofTable.2 ⟨entry, h, (Node.word_ordinal _).symm, rfl⟩
  have hlength : Subject.length entry.label = entry.label.length := String.length_toList
  rw [eval_synthesize hshort, hlookup, hlength] at hanswer
  exact ⟨part, hleads, hanswer.symm⟩

/-- Every node is on the route of a label. -/
theorem exists_prefix_routeOf (hne : table.entries ≠ #[]) {route : Route} {part : Decision V}
    (h : ((ofTable table).synthesize condense).LeadsTo route part) :
    ∃ entry ∈ table.entries, route <+: table.routeOf condense entry ∧
      ∃ cursor, ((ofTable table).synthesize condense).Arrives .ordinal entry.label
        (part, cursor) := by
  obtain ⟨hempty, -⟩ | ⟨n, known, hnode, hsite, -⟩ := exists_site hshort h
  · exact absurd hempty hne
  · -- the node of the trie that the part belongs to is on the way to some label
    obtain ⟨rest, hrest, -⟩ := hsite.isOpen.exists_reached
    obtain ⟨entry, hentry, hlabel, -⟩ := exists_entry_of_isSome hnode hrest
    have hbegins : route <+: table.routeOf condense entry :=
      ⟨_, (routeOf_of_leadsTo hshort h hentry hlabel).symm⟩
    exact ⟨entry, hentry, hbegins, Decision.exists_arrives h hbegins⟩

/-- Where a payload is returned the route of its label ends. -/
theorem exists_routeOf_eq {route : Route} {part : Decision V} {payload : V}
    (h : ((ofTable table).synthesize condense).LeadsTo route part) (hreturns : part.Returns payload) :
    ∃ entry ∈ table.entries, entry.payload = payload ∧ table.routeOf condense entry = route := by
  have hne : part ≠ .miss := by
    rintro rfl
    simp [Decision.Returns] at hreturns
  obtain ⟨n, known, hnode, hsite, -⟩ := exists_site_of_ne_miss hshort h hne
  -- the payload is that of the node, and nothing is left to read of its label
  have hends : n.payload = some payload ∧ ∀ cs : List Char, cs.length = route.chars.length →
      part.routeFrom .ordinal cs.length (cursorAt cs route.chars.length) = [] := by
    rcases hreturns with rfl | ⟨offset, cases, rfl⟩
    · obtain ⟨-, hpayload, -⟩ := hsite.accept_inv
      exact ⟨hpayload, fun _ _ => rfl⟩
    · obtain ⟨-, rfl, hpayload, -, -⟩ := hsite.dispatch_inv
      refine ⟨hpayload.symm, fun cs hlength => ?_⟩
      rw [Decision.routeFrom, if_pos hlength]
  obtain ⟨hpayload, hroute⟩ := hends
  obtain ⟨entry, hentry, hlabel, rfl⟩ := (payload_eq_some_iff hnode).1 hpayload
  refine ⟨entry, hentry, rfl, ?_⟩
  rw [routeOf_of_leadsTo hshort h hentry (hlabel.trans (List.append_nil _).symm),
    hroute _ (congrArg List.length hlabel), List.append_nil]

end Trie

/-- **No dead code.** In the decision synthesized for a table

* every node is visited by the evaluation of some label, if there are labels,
* the evaluation of every label ends at a node that returns its payload,
* distinct labels end at distinct nodes,
* every node that returns a payload is where the evaluation of exactly one label ends,
* and a miss stands for the empty table only, as the whole decision. -/
theorem no_dead_code {table : Table V} (hshort : ∀ entry ∈ table.entries, entry.label.length < limit)
    (condense : Bool) :
    (table.entries ≠ #[] → ∀ route part,
      ((Trie.ofTable table).synthesize condense).LeadsTo route part →
        ∃ entry ∈ table.entries, route <+: table.routeOf condense entry ∧
          ∃ cursor, ((Trie.ofTable table).synthesize condense).Arrives .ordinal entry.label
            (part, cursor)) ∧
    (∀ entry ∈ table.entries, ∃ part,
      ((Trie.ofTable table).synthesize condense).LeadsTo (table.routeOf condense entry) part ∧
        part.answer? entry.label.length = some entry.payload ∧ part.Returns entry.payload) ∧
    (∀ entry ∈ table.entries, ∀ other ∈ table.entries,
      table.routeOf condense entry = table.routeOf condense other → entry = other) ∧
    (∀ route part payload, ((Trie.ofTable table).synthesize condense).LeadsTo route part →
      part.Returns payload → ∃ entry ∈ table.entries, entry.payload = payload ∧
        ∀ other ∈ table.entries, table.routeOf condense other = route ↔ other = entry) ∧
    ((∃ route, ((Trie.ofTable table).synthesize condense).LeadsTo route .miss) ↔
      table.entries = #[]) ∧
    (table.entries = #[] → (Trie.ofTable table).synthesize condense = .miss) := by
  refine ⟨?_, ?_, ?_, ?_, ?_, Trie.synthesize_of_entries_eq_empty⟩
  · exact fun hne route part h => Trie.exists_prefix_routeOf hshort hne h
  · intro entry hentry
    obtain ⟨part, hleads, hanswer⟩ := Trie.exists_answer? hshort condense hentry
    refine ⟨part, hleads, hanswer, ?_⟩
    rcases Decision.eq_of_answer?_eq_some hanswer with heq | ⟨cases, heq⟩
    · exact .inl heq
    · exact .inr ⟨_, cases, heq⟩
  · exact fun entry hentry other hother => Trie.routeOf_injective hshort hentry hother
  · intro route part payload h hreturns
    obtain ⟨entry, hentry, hpayload, hroute⟩ := Trie.exists_routeOf_eq hshort h hreturns
    refine ⟨entry, hentry, hpayload, fun other hother => ⟨fun heq => ?_, ?_⟩⟩
    · exact Trie.routeOf_injective hshort hother hentry (heq.trans hroute.symm)
    · rintro rfl
      exact hroute
  · constructor
    · rintro ⟨route, h⟩
      obtain ⟨hempty, -⟩ | ⟨n, known, -, hsite, -⟩ := Trie.exists_site hshort h
      · exact hempty
      · obtain _ | ⟨-, hbehind⟩ := hsite
        cases hbehind
    · intro hempty
      rw [Trie.synthesize_of_entries_eq_empty hempty]
      exact ⟨[], .here _⟩

/-- The guard in front of the last character of a longer label is visited by it. -/
theorem no_dead_code_abcd : ∃ (table : Table Nat) (route : Route) (next : Decision Nat),
    (∀ entry ∈ table.entries, entry.label.length < limit) ∧
    ((Trie.ofTable table).synthesize true).LeadsTo route (.guard (.exact 4) next) ∧
    ∃ entry ∈ table.entries, route <+: table.routeOf true entry ∧
      ∃ cursor, ((Trie.ofTable table).synthesize true).Arrives .ordinal entry.label
        (.guard (.exact 4) next, cursor) := by
  let table : Table Nat := ⟨.ordinal, #[⟨"ab", 0⟩, ⟨"abcd", 1⟩, ⟨"x", 2⟩], by decide⟩
  have hshort : ∀ entry ∈ table.entries, entry.label.length < limit := by decide
  have hsynthesize : (Trie.ofTable table).synthesize true =
      .guard (.range 1 4) (.dispatch 0 none [
        ('a', .guard (.min 2) (.dispatch 1 none [
          ('b', .dispatch 2 (some 0) [
            ('c', .guard (.exact 4) (.dispatch 3 none [('d', .accept 1)]))])])),
        ('x', .guard (.exact 1) (.accept 2))]) := by
    decide +kernel
  have hleads : ((Trie.ofTable table).synthesize true).LeadsTo
      [.pass (.range 1 4), .choose 0 0 'a', .pass (.min 2), .choose 1 0 'b', .choose 2 0 'c']
      (.guard (.exact 4) (.dispatch 3 none [('d', .accept 1)])) := by
    rw [hsynthesize]
    exact .onward .pass (.onward (.choose rfl) (.onward .pass
      (.onward (.choose rfl) (.onward (.choose rfl) (.here _)))))
  obtain ⟨hvisited, -⟩ := no_dead_code hshort true
  exact ⟨table, _, _, hshort, hleads, hvisited (by simp [table]) _ _ hleads⟩

end Lexicon
