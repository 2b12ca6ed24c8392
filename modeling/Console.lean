import Console.Grammar.Description
import Console.Registry.Dispatch
import Console.Settings.File
import Console.Proofs.Binding.Tiling
import Console.Proofs.Binding.Isolation
import Console.Proofs.Binding.Growth
import Console.Proofs.Completion.Candidates
import Console.Proofs.Completion.Walks
import Console.Proofs.Binding.Suggestions
import Console.Proofs.Registry.Names
import Console.Proofs.Registry.Answers
import Console.Proofs.Registry.Failures
import Console.Proofs.Completion.Continuations
import Console.Proofs.Registry.Expansions
import Console.Proofs.Binding.Quoting
import Console.Proofs.Registry.Matching
import Console.Proofs.Binding.Widening
import Console.Proofs.Binding.Spacing
import Console.Proofs.Registry.Orders
import Console.Proofs.Registry.Labels
import Console.Proofs.Settings.Refusals
import Console.Proofs.Binding.Positions
import Console.Proofs.Binding.Ranges
import Console.Proofs.Text.Faults
import Console.Proofs.Binding.LastBound
import Console.Proofs.Binding.Padding
import Console.Proofs.Completion.Narrowing
import Console.Proofs.Completion.Acceptance
import Console.Proofs.Grammar.Columns
import Console.Proofs.Registry.Listings
import Console.Proofs.Text.Taking
import Console.Proofs.Binding.Lookup
