import ShapeQuery.Main
import ShapeQuery.Proofs.Filter.Truth
import ShapeQuery.Proofs.Shape.Selection
import ShapeQuery.Proofs.Filter.Harmless
import ShapeQuery.Proofs.Sparql.Readability
import ShapeQuery.Proofs.Filter.Translation
import ShapeQuery.Proofs.Listing.Harmless
import ShapeQuery.Proofs.Compiler.Harmless
import ShapeQuery.Proofs.Shape.Scoping
import ShapeQuery.Proofs.Filter.Scoping
import ShapeQuery.Proofs.Compiler.Scoping
import ShapeQuery.Proofs.Shape.Anchoring
import ShapeQuery.Proofs.Shape.Allocation
import ShapeQuery.Proofs.Shape.Anonymity
import ShapeQuery.Proofs.Shape.Refocusing
import ShapeQuery.Proofs.Filter.Sites
import ShapeQuery.Proofs.Filter.Anchoring
import ShapeQuery.Proofs.Compiler.Anchoring
import ShapeQuery.Proofs.Compiler.Paging
import ShapeQuery.Proofs.Compiler.Vouching
import ShapeQuery.Proofs.Compiler.Completeness
import ShapeQuery.Proofs.Compiler.Blame
import ShapeQuery.Proofs.Compiler.Geometries
import ShapeQuery.Proofs.Listing.Facets
import ShapeQuery.Proofs.Filter.Predicates
import ShapeQuery.Proofs.Listing.Restricting
import ShapeQuery.Proofs.Filter.Periods
import ShapeQuery.Proofs.Shape.BlankClosure
import ShapeQuery.Proofs.Shape.PathWriting
import ShapeQuery.Proofs.Listing.Spans
import ShapeQuery.Proofs.Text.Wildcards
import ShapeQuery.Proofs.Sparql.Parts
import ShapeQuery.Proofs.Rdf.Walks
import ShapeQuery.Proofs.Listing.Pages
import ShapeQuery.Proofs.Filter.Appending
import ShapeQuery.Proofs.Compiler.Acceptance
import ShapeQuery.Proofs.Compiler.History
import ShapeQuery.Proofs.Filter.MultiGeometries
import ShapeQuery.Proofs.Filter.Numbers
import ShapeQuery.Proofs.Filter.WellKnownText
import ShapeQuery.Proofs.Sparql.Compositions
