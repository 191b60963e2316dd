import Lexicon.Event
import Lexicon.Matcher

/-!
# The journal of a compilation

The steps of a compilation together with the events they report, in order. Runs are reported while
the trie is walked, a node before its children, and so before the decision that holds them is
complete; `Node.runEvents` walks the trie in the order of the synthesis without building anything.
-/

namespace Lexicon

universe u v

variable {V : Type u}

/-- A result with the events reported on the way to it. -/
structure Reported (α : Type v) where
  value : α
  events : List Event

/-- The event of a failure to build a table. -/
def BuildError.event : BuildError → Event
  | duplicateKey label first duplicate => .duplicateLabel label first duplicate

namespace Table

/-- The event of having built a table. -/
def event (t : Table V) : Event := .tableBuilt t.size t.fold

end Table

namespace Node

mutual

/-- The runs of the decision of a node, which may begin with one. -/
def runEvents (condense : Bool) (n : Node V) (index : Nat) : List Event :=
  match _h : n.firstRun? condense with
  | some run =>
    .condensedRun index run.length run.endsAtLeaf ::
      if run.endsAtLeaf then [] else run.stop.branchEvents condense (index + run.length)
  | none => n.branchEvents condense index
termination_by 2 * n.count + 1
decreasing_by
  · have := count_stop_firstRun?_lt ‹_›
    omega
  · omega

/-- The runs of the decision of a node that does not begin with one. -/
def branchEvents (condense : Bool) (n : Node V) (index : Nat) : List Event :=
  n.children.flatMap fun m => m.runEvents condense (index + 1)
termination_by 2 * n.count
decreasing_by
  have := count_lt_of_mem ‹m ∈ n.children›
  omega

end

/-! ### What is reported of a node, case by case -/

variable {condense : Bool} {n : Node V} {run : Run V}

theorem runEvents_of_firstRun?_eq_some (h : n.firstRun? condense = some run) (index : Nat) :
    n.runEvents condense index =
      .condensedRun index run.length run.endsAtLeaf ::
        if run.endsAtLeaf then [] else run.stop.branchEvents condense (index + run.length) := by
  rw [runEvents]
  split
  · rename_i run' h'
    obtain rfl := Option.some.inj (h.symm.trans h')
    rfl
  · rename_i h'
    simp [h] at h'

theorem runEvents_of_firstRun?_eq_none (h : n.firstRun? condense = none) (index : Nat) :
    n.runEvents condense index = n.branchEvents condense index := by
  rw [runEvents]
  split
  · rename_i h'
    simp [h] at h'
  · rfl

theorem branchEvents_eq (condense : Bool) (n : Node V) (index : Nat) :
    n.branchEvents condense index =
      n.children.flatMap fun m => m.runEvents condense (index + 1) := by
  rw [branchEvents]

theorem branchEvents_of_isLeaf (hleaf : n.isLeaf) (index : Nat) :
    n.branchEvents condense index = [] := by
  rw [branchEvents_eq, List.isEmpty_iff.1 hleaf, List.flatMap_nil]

end Node

namespace Trie

/-- The event of having built a trie. -/
def event (t : Trie V) : Event := .trieBuilt t.labelCount t.size t.fold

/-- The event of having synthesized a decision with these statistics. -/
def synthesizedEvent (t : Trie V) (condense : Bool) (stats : Stats) : Event :=
  .decisionSynthesized t.size condense stats.lengthChecks stats.condensed stats.condensedTerms
    stats.dispatches stats.dispatchCases

/-- The events of synthesizing the decision `d` of a trie. -/
def decisionEvents (t : Trie V) (condense : Bool) (d : Decision V) : List Event :=
  t.root.runEvents condense 0 ++ [t.synthesizedEvent condense d.stats]

/-- The decision of a trie with the events of its synthesis. -/
def synthesizeReported (t : Trie V) (condense : Bool) : Reported (Decision V) :=
  let d := t.synthesize condense
  ⟨d, t.decisionEvents condense d⟩

end Trie

/-- The matcher of a table with the events of its compilation. -/
def Matcher.ofTableReported (table : Table V) (options : Options) : Reported (Matcher V) :=
  let m := Matcher.ofTable table options
  ⟨m, m.trie.event :: (m.trie.decisionEvents options.condense m.decision ++
    [.matcherCompiled m.size m.fold options.condense])⟩

/-- What comes of an attempt to build a table, with the events of the attempt and, if it succeeded,
of the compilation. -/
def Matcher.ofAttemptReported (attempt : Except BuildError (Table V)) (options : Options) :
    Reported (Except BuildError (Matcher V)) :=
  match attempt with
  | .ok table =>
    let compiled := Matcher.ofTableReported table options
    ⟨.ok compiled.value, table.event :: compiled.events⟩
  | .error e => ⟨.error e, [e.event]⟩

/-- The matcher of a list of labels with their payloads, with the events of its compilation. -/
def compileReported (options : Options) (source : List (String × V)) :
    Reported (Except BuildError (Matcher V)) :=
  Matcher.ofAttemptReported (Table.build options.fold source) options

/-- The matcher of the members of an enumeration, with the events of its compilation. -/
def compileVariantsReported (options : Options) (source : List (Variant × V)) :
    Reported (Except BuildError (Matcher V)) :=
  Matcher.ofAttemptReported (Table.ofVariants options.fold source) options

/-- The source text of a function with the event of having written it. -/
def Decision.emitReported (signature : Source.Signature) (render : V → String) (d : Decision V) :
    Reported String :=
  let text := d.emit signature render
  ⟨text, [.functionEmitted signature.name text.utf8ByteSize]⟩

/-- The source text of a matcher's function with the event of having written it. -/
def Matcher.emitReported (name returnType : String) (render : V → String) (m : Matcher V) :
    Reported String :=
  m.decision.emitReported (m.signature name returnType) render

/-! ### Reports change no result -/

@[simp] theorem Trie.value_synthesizeReported (t : Trie V) (condense : Bool) :
    (t.synthesizeReported condense).value = t.synthesize condense := rfl

@[simp] theorem Matcher.value_ofTableReported (table : Table V) (options : Options) :
    (Matcher.ofTableReported table options).value = Matcher.ofTable table options := rfl

theorem Matcher.value_ofAttemptReported (attempt : Except BuildError (Table V))
    (options : Options) :
    (Matcher.ofAttemptReported attempt options).value =
      attempt.map (Matcher.ofTable · options) := by
  cases attempt <;> rfl

@[simp] theorem value_compileReported (options : Options) (source : List (String × V)) :
    (compileReported options source).value = compile options source :=
  Matcher.value_ofAttemptReported _ options

@[simp] theorem value_compileVariantsReported (options : Options) (source : List (Variant × V)) :
    (compileVariantsReported options source).value = compileVariants options source :=
  Matcher.value_ofAttemptReported _ options

@[simp] theorem Matcher.value_emitReported (name returnType : String) (render : V → String)
    (m : Matcher V) :
    (m.emitReported name returnType render).value = m.emit name returnType render := by
  rw [Matcher.emitReported, Decision.emitReported, Matcher.emit]

end Lexicon
