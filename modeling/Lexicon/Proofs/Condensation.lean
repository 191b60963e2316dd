import Lexicon.Decision.Preorder
import Lexicon.Decision.Routes
import Lexicon.Proofs.MaximalRuns
import Lexicon.Proofs.Synthesis.Guards

/-!
# Condensation misses no chain

A branch with a single case and no payload of its own leaves an input no choice. Where runs are
asked for, no two such branches follow each other in a synthesized decision, and none is followed by
a run: behind its case a label ends, or there is a choice (`condensation_complete`).

Branches are written on two routes, at a node where no run starts and at the node where one stops.
What both have in common is that a node without a choice is written as a branch only if its child
has one (`Node.isStop_decision`); for the second this is where the run had to stop.
-/

namespace Lexicon

universe u

variable {V : Type u}

namespace Decision

/-- What is left of a decision once the guards in front have passed. -/
def unguarded : Decision V → Decision V
  | guard _ next => next.unguarded
  | d => d

@[simp] theorem unguarded_guarded (check : Option LengthCheck) (next : Decision V) :
    (guarded check next).unguarded = next.unguarded := by
  cases check <;> rfl

/-- A label ends here, or may end here, or there are two ways to go on. -/
def IsStop : Decision V → Prop
  | dispatch _ onEnd cases => onEnd.isSome ∨ 2 ≤ cases.length
  | accept _ => True
  | _ => False

/-- What a stop is: a payload, a branch with one or a branch with two cases at least. -/
theorem isStop_iff {d : Decision V} :
    d.IsStop ↔ (∃ payload, d = accept payload) ∨
      (∃ offset payload cases, d = dispatch offset (some payload) cases) ∨
      ∃ offset onEnd cases, d = dispatch offset onEnd cases ∧ 2 ≤ cases.length := by
  cases d with
  | dispatch offset onEnd cases => cases onEnd <;> simp [IsStop]
  | _ => simp [IsStop]

/-- Wherever a branch has a single case and no payload, there is a stop behind the case. -/
def ChainFree (d : Decision V) : Prop :=
  ∀ route offset c next, d.LeadsTo route (dispatch offset none [(c, next)]) →
    next.unguarded.IsStop

theorem ChainFree.guarded {next : Decision V} (h : next.ChainFree) (check : Option LengthCheck) :
    (guarded check next).ChainFree := by
  cases check with
  | none => exact h
  | some check =>
    rintro route offset c d (_ | ⟨hturn, hrest⟩)
    cases hturn
    exact h _ offset c d hrest

theorem ChainFree.spell {next : Decision V} (h : next.ChainFree) (tests : List CharTest) :
    (spell tests next).ChainFree := by
  rintro route offset c d (_ | ⟨hturn, hrest⟩)
  cases hturn
  exact h _ offset c d hrest

theorem chainFree_ofPayload (payload : Option V) : (ofPayload payload).ChainFree := by
  cases payload with
  | none => rintro route offset c d (_ | ⟨⟨⟩, -⟩)
  | some payload => rintro route offset c d (_ | ⟨⟨⟩, -⟩)

theorem chainFree_dispatch {offset : Nat} {onEnd : Option V} {cases : List (Char × Decision V)}
    (hcases : ∀ entry ∈ cases, entry.2.ChainFree)
    (hstop : onEnd = none → ∀ c next, cases = [(c, next)] → next.unguarded.IsStop) :
    (dispatch offset onEnd cases).ChainFree := by
  rintro route offset' c d (_ | ⟨hturn, hrest⟩)
  · exact hstop rfl c d rfl
  · cases hturn with
    | choose hcase => exact hcases _ (List.mem_of_getElem? hcase) _ offset' c d hrest

end Decision

namespace Node

variable {n m : Node V}

/-- A node that is no link is written as a stop. -/
theorem isStop_decision (hterm : m.isLeaf → m.isTerminal) (hlink : ¬ m.isLink) (index : Nat)
    (previous : LengthRange) : (m.decision true index previous).unguarded.IsStop := by
  have hrun : m.firstRun? true = none := by
    have hcan : m.run?.isSome = false := by
      rw [isSome_run?, canCondense, Bool.eq_false_iff.2 hlink, Bool.false_and]
    simpa [firstRun?] using hcan
  rw [decision_of_firstRun?_eq_none hrun]
  by_cases hleaf : m.isLeaf
  · obtain ⟨payload, hpayload⟩ := Option.isSome_iff_exists.1 (hterm hleaf)
    rw [branch_of_payload_eq_some hleaf hpayload, Decision.unguarded_guarded]
    trivial
  · rw [branch_of_not_isLeaf hleaf, Decision.unguarded_guarded]
    -- there is a child, and if there is one only, a label ends at the node
    have hchildren : m.children.length ≠ 0 := by simpa [isLeaf] using hleaf
    have hpayload : m.isTerminal ∨ m.children.length ≠ 1 := by
      by_contra hnone
      rw [not_or, not_not] at hnone
      exact hlink (by simp [isLink, hnone])
    change m.isTerminal ∨ 2 ≤ (m.children.map _).length
    rw [List.length_map]
    exact hpayload.imp_right fun hne => by omega

/-- Where a run stops at a link, the next node is none. -/
theorem not_isLink_of_stop {run : Run V} (h : n.run? = some run) (hlink : run.stop.isLink) :
    ∀ m ∈ run.stop.children, ¬ m.isLink := by
  obtain ⟨hpayload, k, hk⟩ := isLink_iff.1 hlink
  have hterm : ¬ run.stop.isTerminal := by simp [isTerminal, hpayload]
  obtain hnil | ⟨k', hk', hstops⟩ := (isMaximalRun_of_run?_eq_some h).stops
  · simp [hnil]
  · have hbranches := hstops.resolve_left hterm
    intro m hm hlink'
    obtain ⟨-, l, hl⟩ := isLink_iff.1 hlink'
    rw [hk', List.mem_singleton] at hm
    subst hm
    simp [hl] at hbranches

/-- Where no run starts at a link, the next node is none. -/
theorem not_isLink_of_run?_eq_none (h : n.run? = none) (hlink : n.isLink) :
    ∀ m ∈ n.children, ¬ m.isLink := by
  obtain ⟨hpayload, k, hk⟩ := isLink_iff.1 hlink
  have hcan : ¬ n.canCondense := by rw [← isSome_run?, h]; simp
  intro m hm hlink'
  rw [hk, List.mem_singleton] at hm
  subst hm
  exact hcan (by rw [canCondense, hlink, hk]; simpa using hlink')

/-- The decision of a node with runs leaves no chain over, and neither does its branch where the
node or its children give a choice. -/
theorem chainFree_decision (h : n.Valid) (index : Nat) (previous : LengthRange) :
    (n.decision true index previous).ChainFree := by
  have hboth : (∀ (n : Node V) index previous, n.Valid →
        (n.decision true index previous).ChainFree) ∧
      ∀ (n : Node V) index previous, n.Valid → (n.isLink → ∀ m ∈ n.children, ¬ m.isLink) →
        (n.branch true index previous).ChainFree := by
    apply decision.mutual_induct
    case case1 =>
      intro n index previous run hrun hleaf hn
      rw [decision_of_endsAtLeaf hrun hleaf]
      exact ((Decision.chainFree_ofPayload _).spell _).guarded _
    case case2 =>
      intro n index previous run hrun next hleaf established ih hn
      have hvalid : run.stop.Valid := (chain_of_firstRun?_eq_some hrun).1.valid hn
      rw [decision_of_not_endsAtLeaf hrun hleaf]
      exact ((ih hvalid (not_isLink_of_stop hrun)).spell _).guarded _
    case case3 =>
      intro n index previous hrun ih hn
      rw [decision_of_firstRun?_eq_none hrun]
      exact ih hn (not_isLink_of_run?_eq_none hrun)
    case case4 =>
      intro n index previous hleaf payload hpayload hn hlink
      rw [branch_of_payload_eq_some hleaf hpayload]
      exact (Decision.chainFree_ofPayload (some payload)).guarded _
    case case5 =>
      intro n index previous hleaf hpayload hn hlink
      rw [branch_of_payload_eq_none hleaf hpayload]
      exact Decision.chainFree_ofPayload none
    case case6 =>
      intro n index previous range hleaf below ih hn hlink
      rw [branch_of_not_isLeaf hleaf]
      refine (Decision.chainFree_dispatch ?_ ?_).guarded _
      · intro entry hentry
        obtain ⟨m, hm, rfl⟩ := List.mem_map.1 hentry
        exact ih m hm (hn.child hm)
      · intro hpayload c next hcases
        obtain ⟨m, hm, heq⟩ := List.map_eq_singleton_iff.1 hcases
        obtain ⟨rfl, rfl⟩ := Prod.mk.inj heq
        have hmem : m ∈ n.children := by simp [hm]
        exact isStop_decision (hn.isTerminal hmem)
          (hlink (isLink_iff.2 ⟨hpayload, m, hm⟩) m hmem) ..
  exact hboth.1 n index previous h

/-- Without runs nothing is tested but by branches. -/
theorem spell_notMem_heads (n : Node V) (index : Nat) (previous : LengthRange)
    (tests : List CharTest) : .spell tests ∉ (n.decision false index previous).heads := by
  have hguarded : ∀ (check : Option LengthCheck) {next : Decision V},
      .spell tests ∉ next.heads → .spell tests ∉ (Decision.guarded check next).heads := by
    rintro (_ | check) next hnext
    · exact hnext
    · simpa using hnext
  refine decision_induction (motive := fun _ _ _ d => .spell tests ∉ d.heads)
    ?runToLeaf ?runOn ?leaf ?bareLeaf ?branch n index previous
  case runToLeaf => exact fun n index previous run hrun => absurd hrun (by simp [firstRun?])
  case runOn => exact fun n index previous run next hrun => absurd hrun (by simp [firstRun?])
  case leaf => exact fun n index previous payload _ _ => hguarded _ (by simp)
  case bareLeaf => exact fun n index previous _ _ => by simp
  case branch =>
    intro n index previous next _ ih
    refine hguarded _ ?_
    rw [Decision.heads_dispatch, List.mem_cons, List.mem_flatMap]
    rintro (heq | ⟨entry, hentry, hmem⟩)
    · cases heq
    · obtain ⟨m, hm, rfl⟩ := List.mem_map.1 hentry
      exact ih m hm hmem

end Node

/-- **Condensation misses no chain.** In a decision with runs, wherever a branch has a single case
and no payload, what stands behind the case and its guards is a payload, a branch with a payload or
a branch with at least two cases, and so neither a run nor another such branch. A decision without
runs tests nothing but by branches. -/
theorem condensation_complete (table : Table V) :
    (∀ route offset c next,
      ((Trie.ofTable table).synthesize true).LeadsTo route (.dispatch offset none [(c, next)]) →
        ((∃ payload, next.unguarded = .accept payload) ∨
          (∃ offset' payload cases, next.unguarded = .dispatch offset' (some payload) cases) ∨
          ∃ offset' onEnd cases, next.unguarded = .dispatch offset' onEnd cases ∧
            2 ≤ cases.length) ∧
        (∀ tests rest, next.unguarded ≠ .spell tests rest) ∧
        ∀ offset' c' rest, next.unguarded ≠ .dispatch offset' none [(c', rest)]) ∧
    ∀ tests, .spell tests ∉ ((Trie.ofTable table).synthesize false).heads := by
  refine ⟨fun route offset c next hleads => ?_, fun tests => ?_⟩
  · have hstop : next.unguarded.IsStop :=
      Node.chainFree_decision (Trie.valid_root_ofTable table) 0 .unconstrained _ _ _ _ hleads
    refine ⟨Decision.isStop_iff.1 hstop, fun tests rest heq => ?_, fun offset' c' rest heq => ?_⟩
    · rw [heq] at hstop
      exact hstop
    · rw [heq] at hstop
      simp [Decision.IsStop] at hstop
  · exact Node.spell_notMem_heads _ 0 .unconstrained tests

/-- The run in front of two labels stops before they part, so the branch behind it has a single
case; behind that case there are two. -/
theorem condensation_complete_abxc : ∃ (table : Table Nat) (route : Route) (offset : Nat) (c : Char)
    (next : Decision Nat), table.labels = ["abxc", "abxd"] ∧
    ((Trie.ofTable table).synthesize true).LeadsTo route (.dispatch offset none [(c, next)]) ∧
    (∀ tests rest, next.unguarded ≠ .spell tests rest) ∧
    ∀ offset' c' rest, next.unguarded ≠ .dispatch offset' none [(c', rest)] := by
  let table : Table Nat := ⟨.ordinal, #[⟨"abxc", 0⟩, ⟨"abxd", 1⟩], by decide⟩
  have hsynthesize : (Trie.ofTable table).synthesize true =
      .guard (.min 2) (.spell [⟨0, 'a'⟩, ⟨1, 'b'⟩] (.guard (.exact 4) (.dispatch 2 none
        [('x', .dispatch 3 none [('c', .accept 0), ('d', .accept 1)])]))) := by
    decide +kernel
  have hleads : ((Trie.ofTable table).synthesize true).LeadsTo
      [.pass (.min 2), .spelled [⟨0, 'a'⟩, ⟨1, 'b'⟩], .pass (.exact 4)] (.dispatch 2 none
        [('x', .dispatch 3 none [('c', .accept 0), ('d', .accept 1)])]) := by
    rw [hsynthesize]
    exact .onward .pass (.onward .spelled (.onward .pass (.here _)))
  obtain ⟨hchains, -⟩ := condensation_complete table
  obtain ⟨-, hspell, hbranch⟩ := hchains _ _ _ _ hleads
  exact ⟨table, _, _, _, _, rfl, hleads, hspell, hbranch⟩

end Lexicon
