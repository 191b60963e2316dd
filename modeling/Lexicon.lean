import Lexicon.Journal
import Lexicon.Payload
import Lexicon.Source.Run
import Lexicon.Decision.Listing
import Lexicon.Proofs.Trie.Order
import Lexicon.Proofs.Trie.Contents
import Lexicon.Proofs.Trie.Lengths
import Lexicon.Proofs.Trie.Chain
import Lexicon.Proofs.Decision.Cursor
import Lexicon.Proofs.Synthesis.Matching
import Lexicon.Proofs.Matching
import Lexicon.Decision.Erasure
import Lexicon.Proofs.Synthesis.Erasure
import Lexicon.Source.Scan
import Lexicon.Source.Reading
import Lexicon.Proofs.Source.Scanning
import Lexicon.Proofs.Source.Reading
import Lexicon.Decision.Paths
import Lexicon.Proofs.Decision.Forward
import Lexicon.Proofs.Source.Lowering
import Lexicon.Proofs.Source.Agreement
import Lexicon.Decision.Steps
import Lexicon.Proofs.Decision.Steps
import Lexicon.Proofs.Synthesis.Shape
import Lexicon.Proofs.Decision.Bounds
import Lexicon.Proofs.IndexSafety
import Lexicon.Decision.Routes
import Lexicon.Proofs.Decision.Routes
import Lexicon.Proofs.Narrowing
import Lexicon.Proofs.GuardExactness
import Lexicon.Proofs.Reachability
import Lexicon.Proofs.Synthesis.Invariants
import Lexicon.Proofs.Trie.Canonicity
import Lexicon.Proofs.Canonicity
import Lexicon.Decision.Readers
import Lexicon.Proofs.ForwardReading
import Lexicon.Proofs.RangeAnalysis
import Lexicon.Trie.Prefixes
import Lexicon.Proofs.Trie.Numbering
import Lexicon.Proofs.Representation
import Lexicon.Proofs.MaximalRuns
import Lexicon.Proofs.Condensation
import Lexicon.Proofs.Duplicates
import Lexicon.Proofs.Trie.Preorder
import Lexicon.Proofs.Accounting
import Lexicon.Decision.Readback
import Lexicon.Proofs.Text.Quoted
import Lexicon.Proofs.Payload
import Lexicon.Proofs.Listing
import Lexicon.Proofs.Folding
import Lexicon.Proofs.Positions
import Lexicon.Proofs.Trie.Listing
import Lexicon.Proofs.Source.Bindings
import Lexicon.Decision.Parts
import Lexicon.Proofs.Journal
