import MarkupQuery.Text.Blank
import MarkupQuery.Text.LetterCase
import MarkupQuery.Text.WordTable
import MarkupQuery.Text.Search
import MarkupQuery.Json.Reader
import MarkupQuery.Tree.Content
import MarkupQuery.Description.Json
import MarkupQuery.Selector.Basic
import MarkupQuery.Selector.Printer
import MarkupQuery.Selector.Token
import MarkupQuery.Selector.Parser
import MarkupQuery.Regex.Engine
import MarkupQuery.Selection
import MarkupQuery.CommandLine.Run
import MarkupQuery.Main
import MarkupQuery.Proofs.Acceptance
import MarkupQuery.Proofs.Positions
import MarkupQuery.Proofs.WellFormed
import MarkupQuery.Proofs.Nesting
import MarkupQuery.Proofs.Locality
import MarkupQuery.Proofs.Candidates
import MarkupQuery.Proofs.Sessions
import MarkupQuery.Proofs.ErrorPositions
import MarkupQuery.Proofs.Inquiries
import MarkupQuery.Proofs.Combining
import MarkupQuery.Proofs.Fragments
import MarkupQuery.Proofs.Sparing
import MarkupQuery.Proofs.Separation
import MarkupQuery.Proofs.Narrowing
import MarkupQuery.Proofs.Anchoring
import MarkupQuery.Proofs.IgnoringCase
import MarkupQuery.Proofs.Subqueries
import MarkupQuery.Proofs.SiblingPlaces
import MarkupQuery.Proofs.NameCase
import MarkupQuery.Proofs.EveryDepth
import MarkupQuery.Proofs.Decoding
import MarkupQuery.Proofs.Repetitions
import MarkupQuery.Proofs.UnknownTags
import MarkupQuery.Proofs.Iterators
import MarkupQuery.Proofs.Slices
