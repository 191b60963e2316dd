import Lexicon.Decision.Parts
import Lexicon.Journal
import Lexicon.Proofs.Condensation
import Lexicon.Proofs.Duplicates
import Lexicon.Proofs.Trie.Numbering

/-!
# The journal tells of the decision

The events of a compilation can be told from the matcher that comes of it: those of its table and
its trie, one event for every run of its decision, in the order of the decision's parts, and those
of the decision and of the matcher (`Matcher.IsJournal`). Of an attempt that fails the event of its
error is reported, and no other (`events_mirror_decision`). What is said of an event is what the log
shows of it: the level, the message and the fields with their names (`Event.Logs`).

A run is reported on the way down the trie, before there is a decision behind it, and guards are put
in front only on the way back. So the events of a node and the runs of its decision are compared
along the recursion that both have in common (`Node.forall₂_runEvents`). A guard is no run, and what
follows a run is a return exactly where the run ends at a leaf.
-/

namespace Lexicon

universe u

variable {V : Type u}

/-- What the log shows of an event. -/
structure Event.Logs (event : Event) (level : Level) (message : String)
    (fields : List (String × FieldValue)) : Prop where
  level_eq : event.level = level
  message_eq : event.message = message
  fields_eq : event.fields = fields

/-- The event tells of the run with which a decision begins: at what offset the first test reads,
how many tests there are, and whether nothing follows them but a return. -/
inductive Event.ReportsRun : Event → Decision V → Prop
  | intro {event : Event} (test : CharTest) (tests : List CharTest) (next : Decision V)
      (logs : event.Logs .trace "condensed run" [("offset", .number test.offset),
        ("terms", .number (test :: tests).length), ("ends_at_leaf", .truth next.isReturn)]) :
      ReportsRun event (.spell (test :: tests) next)

/-! ### The runs of a node -/

namespace Node

variable {condense : Bool} {n : Node V} {run : Run V}

/-- What is reported of a run is what the decision says of it. -/
theorem reportsRun_of_firstRun?_eq_some (h : n.firstRun? condense = some run) (index : Nat)
    {next : Decision V} (hnext : next.isReturn = run.endsAtLeaf) :
    (Event.condensedRun index run.length run.endsAtLeaf).ReportsRun
      (.spell (run.tests index) next) := by
  obtain ⟨c, rest, hchars⟩ := List.exists_cons_of_ne_nil (chain_of_firstRun?_eq_some h).2
  have htests : run.tests index = ⟨index, c⟩ :: CharTest.consecutive (index + 1) rest := by
    rw [Run.tests, hchars, CharTest.consecutive]
  rw [← hnext, ← run.length_tests index, htests]
  exact .intro ⟨index, c⟩ _ next ⟨rfl, rfl, rfl⟩

/-- A branch that does not begin at a leaf answers nothing at once. -/
theorem isReturn_branch (hleaf : ¬ n.isLeaf) (index : Nat) (previous : LengthRange) :
    (n.branch condense index previous).isReturn = false := by
  rw [branch_of_not_isLeaf hleaf]
  exact Decision.isReturn_guarded rfl _

/-- The events of a node tell of the runs of its decision, one by one. -/
theorem forall₂_runEvents (condense : Bool) (n : Node V) (index : Nat) (previous : LengthRange) :
    List.Forall₂ Event.ReportsRun (n.runEvents condense index)
      (n.decision condense index previous).runs := by
  have hboth : (∀ (n : Node V) index previous,
        List.Forall₂ Event.ReportsRun (n.runEvents condense index)
          (n.decision condense index previous).runs) ∧
      ∀ (n : Node V) index previous,
        List.Forall₂ Event.ReportsRun (n.branchEvents condense index)
          (n.branch condense index previous).runs := by
    -- a run to a leaf, a run that stops before one, and no run; then, of a branch, a leaf with and
    -- without a payload, and children
    apply decision.mutual_induct
    case case1 =>
      intro n index previous run hrun hleaf
      rw [runEvents_of_firstRun?_eq_some hrun, if_pos hleaf, decision_of_endsAtLeaf hrun hleaf,
        Decision.runs_guarded, Decision.runs_spell, Decision.runs_ofPayload]
      have hnext : (Decision.ofPayload run.stop.payload).isReturn = run.endsAtLeaf := by
        rw [hleaf, Decision.isReturn_ofPayload]
      exact .cons (reportsRun_of_firstRun?_eq_some hrun index hnext) .nil
    case case2 =>
      intro n index previous run hrun next hleaf established ih
      rw [runEvents_of_firstRun?_eq_some hrun, if_neg hleaf,
        decision_of_not_endsAtLeaf hrun hleaf, Decision.runs_guarded, Decision.runs_spell]
      have hnext : (run.stop.branch condense next established).isReturn = run.endsAtLeaf := by
        rw [isReturn_branch hleaf, Bool.eq_false_iff.2 hleaf]
      exact .cons (reportsRun_of_firstRun?_eq_some hrun index hnext) ih
    case case3 =>
      intro n index previous hrun ih
      rw [runEvents_of_firstRun?_eq_none hrun, decision_of_firstRun?_eq_none hrun]
      exact ih
    case case4 =>
      intro n index previous hleaf payload hpayload
      rw [branchEvents_of_isLeaf hleaf, branch_of_payload_eq_some hleaf hpayload,
        Decision.runs_guarded]
      exact .nil
    case case5 =>
      intro n index previous hleaf hpayload
      rw [branchEvents_of_isLeaf hleaf, branch_of_payload_eq_none hleaf hpayload]
      exact .nil
    case case6 =>
      intro n index previous range hleaf below ih
      rw [branchEvents_eq, branch_of_not_isLeaf hleaf, Decision.runs_guarded,
        Decision.runs_dispatch, List.flatMap_map]
      -- the children are the same on both sides, and what each yields is compared by itself
      have hchildren : List.Forall₂ (fun m m' => m = m' ∧ m ∈ n.children) n.children n.children :=
        List.forall₂_same.2 fun m hm => ⟨rfl, hm⟩
      refine List.rel_flatMap hchildren ?_
      rintro m _ ⟨rfl, hm⟩
      exact ih m hm
  exact hboth.1 n index previous

end Node

/-! ### The journal of a matcher -/

/-- The events are those of compiling the matcher. -/
structure Matcher.IsJournal (condense : Bool) (m : Matcher V) (events : List Event) : Prop where
  /-- The table and the trie come first, then the runs of the decision, then the decision, with its
  counts, and the matcher. -/
  exists_parts : ∃ table trie runs decision compiled,
    events = table :: trie :: (runs ++ [decision, compiled]) ∧
      table.Logs .debug "label table built"
        [("labels", .number m.size), ("fold", .text m.fold.name)] ∧
      trie.Logs .debug "trie built" [("labels", .number m.size),
        ("nodes", .number m.trie.root.count), ("fold", .text m.fold.name)] ∧
      List.Forall₂ Event.ReportsRun runs m.decision.runs ∧
      decision.Logs .debug "decision synthesized" [("trie_nodes", .number m.trie.root.count),
        ("condense", .truth condense),
        ("length_checks", .number m.decision.stats.lengthChecks),
        ("condensed", .number m.decision.stats.condensed),
        ("condensed_terms", .number m.decision.stats.condensedTerms),
        ("dispatches", .number m.decision.stats.dispatches),
        ("dispatch_cases", .number m.decision.stats.dispatchCases)] ∧
      compiled.Logs .debug "matcher compiled" [("labels", .number m.size),
        ("fold", .text m.fold.name), ("condense", .truth condense)]
  messages : events.map Event.message = "label table built" :: "trie built" ::
    (List.replicate m.decision.runs.length "condensed run" ++
      ["decision synthesized", "matcher compiled"])
  /-- Without condensation no run is reported. -/
  message_ne : condense = false → ∀ event ∈ events, event.message ≠ "condensed run"

/-- Events of runs are told by their message. -/
theorem Event.map_message_of_forall₂ {events : List Event} {parts : List (Decision V)}
    (h : List.Forall₂ Event.ReportsRun events parts) :
    events.map Event.message = List.replicate parts.length "condensed run" := by
  induction h with
  | nil => rfl
  | cons hevent _ ih =>
    cases hevent with
    | intro test tests next logs => rw [List.map_cons, ih, logs.message_eq]; rfl

namespace Matcher

section OfTable

variable (table : Table V) (options : Options)

/-- Without condensation no decision has a run. -/
theorem runs_decision_ofTable (h : options.condense = false) :
    (ofTable table options).decision.runs = [] :=
  Decision.runs_eq_nil fun tests => by
    change .spell tests ∉ ((Trie.ofTable table).synthesize options.condense).heads
    rw [h]
    exact Node.spell_notMem_heads _ 0 .unconstrained tests

theorem forall₂_runEvents_ofTable :
    List.Forall₂ Event.ReportsRun ((Trie.ofTable table).root.runEvents options.condense 0)
      (ofTable table options).decision.runs :=
  Node.forall₂_runEvents options.condense _ 0 .unconstrained

theorem events_ofTableReported :
    (ofTableReported table options).events = (ofTable table options).trie.event ::
      ((Trie.ofTable table).root.runEvents options.condense 0 ++
        [(ofTable table options).trie.synthesizedEvent options.condense
            (ofTable table options).decision.stats,
          .matcherCompiled (ofTable table options).size (ofTable table options).fold
            options.condense]) := by
  rw [ofTableReported, Trie.decisionEvents, List.append_assoc]
  rfl

theorem map_message_ofTableReported :
    (ofTableReported table options).events.map Event.message = "trie built" ::
      (List.replicate (ofTable table options).decision.runs.length "condensed run" ++
        ["decision synthesized", "matcher compiled"]) := by
  rw [events_ofTableReported, List.map_cons, List.map_append,
    Event.map_message_of_forall₂ (forall₂_runEvents_ofTable table options)]
  rfl

/-- The events of compiling a table, behind that of the table itself. -/
theorem isJournal_ofTable :
    (ofTable table options).IsJournal options.condense
      (table.event :: (ofTableReported table options).events) := by
  let m := ofTable table options
  have hsize : m.size = table.size := Trie.labelCount_ofTable table
  have hfold : m.fold = table.fold := Trie.fold_ofTable table
  have hcount : m.trie.root.count = m.trie.size := Trie.count_root_ofTable table
  have htable : table.event.Logs .debug "label table built"
      [("labels", .number m.size), ("fold", .text m.fold.name)] := by
    rw [hsize, hfold]
    exact ⟨rfl, rfl, rfl⟩
  have htrie : m.trie.event.Logs .debug "trie built" [("labels", .number m.size),
      ("nodes", .number m.trie.root.count), ("fold", .text m.fold.name)] := by
    rw [hcount]
    exact ⟨rfl, rfl, rfl⟩
  have hmessages : (table.event :: (ofTableReported table options).events).map Event.message =
      "label table built" :: "trie built" ::
        (List.replicate m.decision.runs.length "condensed run" ++
          ["decision synthesized", "matcher compiled"]) := by
    rw [List.map_cons, map_message_ofTableReported, htable.message_eq]
  refine ⟨⟨_, _, _, _, _, congrArg _ (events_ofTableReported table options), htable, htrie,
    forall₂_runEvents_ofTable table options, ?_, ⟨rfl, rfl, rfl⟩⟩, hmessages, ?_⟩
  · change (m.trie.synthesizedEvent options.condense m.decision.stats).Logs .debug _
      (("trie_nodes", .number m.trie.root.count) :: _)
    rw [hcount]
    exact ⟨rfl, rfl, rfl⟩
  · intro hcondense event hevent hmessage
    have hmem : "condensed run" ∈
        (table.event :: (ofTableReported table options).events).map Event.message :=
      hmessage ▸ List.mem_map_of_mem hevent
    rw [hmessages, runs_decision_ofTable table options hcondense, List.length_nil] at hmem
    exact absurd hmem (by decide)

end OfTable

end Matcher

/-- What is reported of an attempt to compile labels, which are given as they are once folded. What
comes of it is what comes of the attempt without a report. If the labels are pairwise distinct, that
is a matcher, and its journal is reported; otherwise it is the error that names the first duplicate,
and the event says the same. -/
structure Recounts (reported : Reported (Except BuildError (Matcher V)))
    (attempt : Except BuildError (Matcher V)) (fold : CaseFold) (labels : List String)
    (condense : Bool) : Prop where
  value_eq : reported.value = attempt
  built : labels.Nodup → ∃ m, attempt = .ok m ∧ m.size = labels.length ∧ m.fold = fold ∧
    m.IsJournal condense reported.events
  failed : ¬ labels.Nodup → ∃ label first duplicate event,
    IsFirstDuplicate labels label first duplicate ∧
      attempt = .error (.duplicateKey label first duplicate) ∧
      reported.events = [event] ∧
      event.Logs .debug "duplicate label" [("label", .text label), ("original", .number first),
        ("duplicate", .number duplicate)]

/-- Whatever the fold that the options name, the table is built with its own. -/
theorem recounts_build (fold : CaseFold) (source : List (String × V)) (options : Options) :
    Recounts (Matcher.ofAttemptReported (Table.build fold source) options)
      ((Table.build fold source).map (Matcher.ofTable · options)) fold
      (source.map fun entry => fold.applyText entry.1) options.condense where
  value_eq := Matcher.value_ofAttemptReported _ options
  built hnodup := by
    obtain ⟨table, hbuild⟩ := (Table.detects_build fold source).isOk_iff.2 hnodup
    have hsize : table.size = source.length := by
      rw [Table.size, ← Array.length_toList, Table.entries_of_build_eq_ok hbuild, List.length_map]
    rw [hbuild, List.length_map, ← hsize, ← Table.fold_of_build_eq_ok hbuild]
    exact ⟨_, rfl, Trie.labelCount_ofTable table, Trie.fold_ofTable table,
      Matcher.isJournal_ofTable table options⟩
  failed hnodup := by
    obtain ⟨label, first, duplicate, hbuild⟩ :=
      (Table.detects_build fold source).exists_error hnodup
    have hfirst := ((Table.detects_build fold source).error_iff label first duplicate).1 hbuild
    rw [hbuild]
    exact ⟨label, first, duplicate, _, hfirst, rfl, rfl, ⟨rfl, rfl, rfl⟩⟩

/-- **The journal mirrors the decision.** Whatever the table, and whatever fold the options name,
the events of compiling it are those of the table and the trie, then one for every run of the
decision, in order, which says where the run starts, how many characters it tests and whether a
return follows it, then those of the decision, with its counts, and of the matcher. Labels, members
of an enumeration and labels that stand for their positions are compiled with such a journal if they
are pairwise distinct once folded. Otherwise the one event is that of the duplicate that the error
names. -/
theorem events_mirror_decision (table : Table V) (fold : CaseFold) (source : List (String × V))
    (options : Options) :
    (Matcher.ofTable table options).IsJournal options.condense
      (table.event :: (Matcher.ofTableReported table options).events) ∧
    Recounts (Matcher.ofAttemptReported (Table.build fold source) options)
      ((Table.build fold source).map (Matcher.ofTable · options)) fold
      (source.map fun entry => fold.applyText entry.1) options.condense ∧
    Recounts (compileReported options source) (compile options source) options.fold
      (source.map fun entry => options.fold.applyText entry.1) options.condense ∧
    (∀ variants : List (Variant × V),
      Recounts (compileVariantsReported options variants) (compileVariants options variants)
        options.fold (variants.map fun entry =>
          options.fold.applyText (entry.1.description.getD entry.1.name)) options.condense) ∧
    ∀ labels : List String,
      Recounts (Matcher.ofAttemptReported (Table.indexed options.fold labels) options)
        ((compileIndexed options labels).map IndexMatcher.matcher) options.fold
        (labels.map options.fold.applyText) options.condense := by
  refine ⟨Matcher.isJournal_ofTable table options, recounts_build fold source options,
    recounts_build options.fold source options, fun variants => ?_, fun labels => ?_⟩
  · have hrecounts := recounts_build options.fold
      (variants.map fun entry => (entry.1.label, entry.2)) options
    rw [List.map_map] at hrecounts
    exact hrecounts
  · have hrecounts := recounts_build options.fold labels.zipIdx options
    have hlabels : (labels.zipIdx.map fun entry => options.fold.applyText entry.1) =
        labels.map options.fold.applyText := by
      conv_rhs => rw [← List.zipIdx_map_fst 0 labels, List.map_map]
      rfl
    have hattempt : (compileIndexed options labels).map IndexMatcher.matcher =
        (Table.build options.fold labels.zipIdx).map (Matcher.ofTable · options) := by
      rw [compileIndexed, Table.indexed]
      cases Table.build options.fold labels.zipIdx <;> rfl
    rw [hlabels, ← hattempt] at hrecounts
    exact hrecounts

/-- A run that stops where two labels part is reported before one that is the rest of a label. A
label that is there already once case is folded is all that is reported of an attempt. -/
theorem events_mirror_decision_abcd :
    let reported := compileReported .ordinal [("xyz", 0), ("abcd", 1), ("abce", 2)]
    let failed := compileReported .ignoreCase [("a", 0), ("b", 1), ("A", 2)]
    (∃ m, reported.value = .ok m ∧ m.IsJournal true reported.events) ∧
      reported.events.map (fun event => (event.message, event.fields)) = [
        ("label table built", [("labels", .number 3), ("fold", .text "Ordinal")]),
        ("trie built", [("labels", .number 3), ("nodes", .number 9), ("fold", .text "Ordinal")]),
        ("condensed run",
          [("offset", .number 1), ("terms", .number 1), ("ends_at_leaf", .truth false)]),
        ("condensed run",
          [("offset", .number 1), ("terms", .number 2), ("ends_at_leaf", .truth true)]),
        ("decision synthesized", [("trie_nodes", .number 9), ("condense", .truth true),
          ("length_checks", .number 3), ("condensed", .number 2), ("condensed_terms", .number 3),
          ("dispatches", .number 3), ("dispatch_cases", .number 5)]),
        ("matcher compiled",
          [("labels", .number 3), ("fold", .text "Ordinal"), ("condense", .truth true)])] ∧
      failed.value = .error (.duplicateKey "A" 0 2) ∧
      failed.events.map (fun event => (event.message, event.fields)) = [
        ("duplicate label",
          [("label", .text "A"), ("original", .number 0), ("duplicate", .number 2)])] := by
  intro reported failed
  let table : Table Nat := .empty .ordinal
  let source : List (String × Nat) := [("xyz", 0), ("abcd", 1), ("abce", 2)]
  let repeated : List (String × Nat) := [("a", 0), ("b", 1), ("A", 2)]
  obtain ⟨-, -, hrecounts, -⟩ := events_mirror_decision table .ordinal source .ordinal
  obtain ⟨-, -, hrepeated, -⟩ := events_mirror_decision table .ordinal repeated .ignoreCase
  obtain ⟨m, hvalue, -, -, hjournal⟩ := hrecounts.built (by decide +kernel)
  obtain ⟨label, first, duplicate, event, hduplicate, herror, hevents, hlogs⟩ :=
    hrepeated.failed (by decide +kernel)
  have hfirst : IsFirstDuplicate
      (repeated.map fun entry => CaseFold.ignoreCase.applyText entry.1) "A" 0 2 :=
    ⟨by decide +kernel, by decide +kernel, by decide +kernel, by decide +kernel,
      by decide +kernel⟩
  obtain ⟨rfl, rfl, rfl⟩ := hfirst.unique hduplicate
  refine ⟨⟨m, hrecounts.value_eq.trans hvalue, hjournal⟩, by decide +kernel,
    hrepeated.value_eq.trans herror, ?_⟩
  change (compileReported .ignoreCase repeated).events.map _ = _
  rw [hevents, List.map_singleton, hlogs.message_eq, hlogs.fields_eq]

end Lexicon
