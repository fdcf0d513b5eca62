import SegmentedText.World.Run
import SegmentedText.Proofs.Ownership.Reached
import SegmentedText.Proofs.Flat.Substitution
import SegmentedText.Proofs.Bounded.Unbounded
import SegmentedText.Proofs.Streams.Drains
import SegmentedText.Proofs.Flat.Allotments
import SegmentedText.Proofs.Streams.Readings
import SegmentedText.Proofs.Streams.Reads
import SegmentedText.Proofs.Flat.Distinct
import SegmentedText.Proofs.Flat.Questions
import SegmentedText.Proofs.Layouts.Independence
import SegmentedText.Proofs.Refusals.Bounds
import SegmentedText.Proofs.Refusals.Steps
import SegmentedText.Proofs.Refusals.Changes
import SegmentedText.Proofs.Words.Cursors
import SegmentedText.Proofs.Words.Splices
import SegmentedText.Proofs.Words.Streams
import SegmentedText.Proofs.Words.Edits
import SegmentedText.Proofs.Words.Actions
import SegmentedText.Proofs.Refusals.Refused
import SegmentedText.Proofs.Overwriting.Visible
import SegmentedText.Proofs.Overwriting.Stopped
import SegmentedText.Proofs.Serial.RoundTrip
import SegmentedText.Proofs.Lists.Traces
import SegmentedText.Proofs.Lending.Unseen
import SegmentedText.Proofs.Searching.Occurrences
import SegmentedText.Proofs.Cutting.Gaps
import SegmentedText.Proofs.Exchanges.Copies
import SegmentedText.Proofs.Cutting.Parts
import SegmentedText.Proofs.Cutting.Pieces
import SegmentedText.Proofs.Growing.Routes
import SegmentedText.Proofs.Shortening.Trims
import SegmentedText.Proofs.Streams.Written
import SegmentedText.Proofs.Streams.Reused
import SegmentedText.Proofs.Observing.Observers
import SegmentedText.Proofs.Detaching.Detached
import SegmentedText.Proofs.Latin1.Simulation
import SegmentedText.Proofs.Serial.Texts
import SegmentedText.Proofs.Cursors.NormalForm
