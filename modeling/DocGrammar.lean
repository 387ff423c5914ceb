import DocGrammar.Main
import DocGrammar.Proofs.Documents.Order
import DocGrammar.Proofs.Documents.Slices
import DocGrammar.Proofs.Types.Acceptance
import DocGrammar.Proofs.Specs.Isolation
import DocGrammar.Proofs.Specs.RoundTrip
import DocGrammar.Proofs.Pseudo.RoundTrip
import DocGrammar.Proofs.Trees.Outlines
import DocGrammar.Proofs.Documents.Listing
import DocGrammar.Proofs.Documents.Files
import DocGrammar.Proofs.Documents.TypePlaces
import DocGrammar.Proofs.Documents.Registered
import DocGrammar.Proofs.Documents.Recovery
import DocGrammar.Proofs.Documents.NamePlace
import DocGrammar.Proofs.Documents.Shifted
import DocGrammar.Proofs.Documents.Cover
import DocGrammar.Proofs.Documents.Bounds
import DocGrammar.Proofs.Pseudo.LayeredExact
import DocGrammar.Proofs.Tokens.Cover
import DocGrammar.Proofs.Tokens.Printed
import DocGrammar.Proofs.Tokens.Transparent
import DocGrammar.Proofs.Trees.Strings
import DocGrammar.Proofs.Tokens.Faults
import DocGrammar.Proofs.Fixture.Faults
import DocGrammar.Proofs.Fixture.RoundTrip
import DocGrammar.Proofs.Fixture.Verdicts
import DocGrammar.Proofs.Documents.LineEnds
import DocGrammar.Proofs.Highlight.Pieces
import DocGrammar.Proofs.Documents.Consumed
