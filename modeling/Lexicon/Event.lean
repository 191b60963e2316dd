import Lexicon.CaseFold

/-!
# Events

What the library reports about its work, as data: each event has a level, a message and named
fields.
-/

namespace Lexicon

/-- How much detail an event gives. -/
inductive Level where
  | debug
  | trace
deriving DecidableEq

namespace Level

/-- The name of the level in reports. -/
def name : Level → String
  | debug => "debug"
  | trace => "trace"

/-- Whether a report at this level shows events of the other: finer events are left out. -/
def shows : Level → Level → Bool
  | trace, _ => true
  | debug, level => level = debug

end Level

/-- The value of a field of an event. -/
inductive FieldValue where
  | number (n : Nat)
  | truth (b : Bool)
  | text (s : String)
deriving DecidableEq

/-- Something that the library did. -/
inductive Event where
  /-- A label table was built. -/
  | tableBuilt (labels : Nat) (fold : CaseFold)
  /-- A label table could not be built. -/
  | duplicateLabel (label : String) (first duplicate : Nat)
  /-- A trie was built. -/
  | trieBuilt (labels nodes : Nat) (fold : CaseFold)
  /-- A run was put into a decision, with the offset of its first character. -/
  | condensedRun (offset terms : Nat) (endsAtLeaf : Bool)
  /-- A decision was synthesized from a trie of that many nodes. Of its counts only those of what it
  asks are told, not those of what it answers. -/
  | decisionSynthesized (trieNodes : Nat) (condense : Bool)
    (lengthChecks condensed condensedTerms dispatches dispatchCases : Nat)
  /-- A matcher was compiled. -/
  | matcherCompiled (labels : Nat) (fold : CaseFold) (condense : Bool)
  /-- The source text of a function was written, of that many bytes. -/
  | functionEmitted (name : String) (bytes : Nat)
deriving DecidableEq

namespace Event

/-- The level of an event: only runs are reported in detail. -/
def level : Event → Level
  | condensedRun .. => .trace
  | _ => .debug

/-- The message of an event. -/
def message : Event → String
  | tableBuilt .. => "label table built"
  | duplicateLabel .. => "duplicate label"
  | trieBuilt .. => "trie built"
  | condensedRun .. => "condensed run"
  | decisionSynthesized .. => "decision synthesized"
  | matcherCompiled .. => "matcher compiled"
  | functionEmitted .. => "emitted rust function"

/-- The fields of an event. -/
def fields : Event → List (String × FieldValue)
  | tableBuilt labels fold => [("labels", .number labels), ("fold", .text fold.name)]
  | duplicateLabel label first duplicate =>
    [("label", .text label), ("original", .number first), ("duplicate", .number duplicate)]
  | trieBuilt labels nodes fold =>
    [("labels", .number labels), ("nodes", .number nodes), ("fold", .text fold.name)]
  | condensedRun offset terms endsAtLeaf =>
    [("offset", .number offset), ("terms", .number terms), ("ends_at_leaf", .truth endsAtLeaf)]
  | decisionSynthesized trieNodes condense lengthChecks condensed condensedTerms dispatches
      dispatchCases =>
    [("trie_nodes", .number trieNodes), ("condense", .truth condense),
      ("length_checks", .number lengthChecks), ("condensed", .number condensed),
      ("condensed_terms", .number condensedTerms), ("dispatches", .number dispatches),
      ("dispatch_cases", .number dispatchCases)]
  | matcherCompiled labels fold condense =>
    [("labels", .number labels), ("fold", .text fold.name), ("condense", .truth condense)]
  | functionEmitted name bytes => [("fn_name", .text name), ("bytes", .number bytes)]

end Event

end Lexicon
