import CallTrace.Main
import CallTrace.Depth
import CallTrace.Emission
import CallTrace.Instrument.Load
import CallTrace.Proofs.Choices
import CallTrace.Proofs.Concatenation
import CallTrace.Proofs.Coverage
import CallTrace.Proofs.Edit
import CallTrace.Proofs.Endings
import CallTrace.Proofs.Kept
import CallTrace.Proofs.Laid
import CallTrace.Proofs.Laying
import CallTrace.Proofs.Literals
import CallTrace.Proofs.Nesting
import CallTrace.Proofs.Outline
import CallTrace.Proofs.Parsed
import CallTrace.Proofs.Placement
import CallTrace.Proofs.Wrapping
import CallTrace.Proofs.Reading
import CallTrace.Proofs.Tokens
import CallTrace.Proofs.Trees
import CallTrace.Source.Query
import CallTrace.Tracer.Run
import CallTrace.Proofs.Changes
import CallTrace.Proofs.Registration
import CallTrace.Proofs.OneShot
import CallTrace.Proofs.Brackets
import CallTrace.Proofs.Guard
import CallTrace.Proofs.Installation
import CallTrace.Proofs.Preview
import CallTrace.Proofs.Monotonic
import CallTrace.Proofs.Lambdas
import CallTrace.Proofs.Deepening
import CallTrace.Proofs.Making
import CallTrace.Proofs.Roots
import CallTrace.Proofs.Names
import CallTrace.Proofs.Pieces
import CallTrace.Proofs.Positions
import CallTrace.Proofs.Insertions
import CallTrace.Proofs.Inline
import CallTrace.Proofs.Hooks
import CallTrace.Proofs.Streams
import CallTrace.Proofs.Fronts
import CallTrace.Proofs.Statements
import CallTrace.Proofs.Cuts
import CallTrace.Proofs.Components
