import Locus.Interval.Reading
import Locus.Position.Advance
import Locus.Proofs.Interval.Hull
import Locus.Proofs.Interval.Measure
import Locus.Proofs.Interval.Overruns
import Locus.Proofs.Interval.Splitting
import Locus.Proofs.Interval.Tiling
import Locus.Proofs.Interval.UpperBound
import Locus.Proofs.Offsets
import Locus.Proofs.Order
import Locus.Proofs.Position.Columns
import Locus.Proofs.Position.OnText
import Locus.Proofs.Position.Places
import Locus.Proofs.Position.Retreat
import Locus.Proofs.Range.Closure
import Locus.Proofs.Range.Cover
import Locus.Proofs.Range.Cursors
import Locus.Proofs.Range.Equivalence
import Locus.Proofs.Range.Files
import Locus.Proofs.Range.FixedPoint
import Locus.Proofs.Range.Gathered
import Locus.Proofs.Range.Neighbours
import Locus.Proofs.Range.Normal
import Locus.Proofs.Range.Offsets
import Locus.Proofs.Range.OnText
import Locus.Proofs.Range.Outer
import Locus.Proofs.Range.Semilattice
import Locus.Proofs.Range.Survivors
import Locus.Proofs.Range.TightBound
import Locus.Proofs.Range.Transport
import Locus.Proofs.Range.Union
import Locus.Proofs.Sample.Draws
import Locus.Proofs.Sample.Ruled
import Locus.Proofs.Sorting.Adaptive
import Locus.Proofs.Sorting.Merge
import Locus.Proofs.Sorting.Run
import Locus.Proofs.Sorting.Search
import Locus.Proofs.Sorting.StablePerm
import Locus.Proofs.Value.Comparison
import Locus.Proofs.Value.Composition
import Locus.Proofs.Value.Failure
import Locus.Proofs.Value.Leaves
import Locus.Proofs.Value.OnText
import Locus.Proofs.Value.Relocation
import Locus.Proofs.Value.Sequences
import Locus.Proofs.Value.Transport
import Locus.Range.Normal
import Locus.Range.Union
import Locus.Sample
import Locus.Value.Dump
import Locus.Value.Join
import Locus.Value.Location
import Locus.Value.Selection
import Locus.Value.Store
