import AnonymousObjects.Main
import AnonymousObjects.Types.Listing
import AnonymousObjects.Proofs.Types.Growth
import AnonymousObjects.Proofs.Types.Stores
import AnonymousObjects.Proofs.Binding.Agreement
import AnonymousObjects.Proofs.Binding.Alignment
import AnonymousObjects.Proofs.Binding.Reports
import AnonymousObjects.Proofs.Compilation.CleanRuns
import AnonymousObjects.Proofs.Compilation.Order
import AnonymousObjects.Proofs.Typing.Completeness
import AnonymousObjects.Proofs.Types.Interning
import AnonymousObjects.Proofs.Syntax.Grammar.Programs
import AnonymousObjects.Proofs.Syntax.Printing.RoundTrip
import AnonymousObjects.Proofs.Compilation.Nullable
import AnonymousObjects.Proofs.Compilation.Completion
import AnonymousObjects.Proofs.Syntax.Grammar.Prefixes
import AnonymousObjects.Proofs.Types.Canonicity
import AnonymousObjects.Proofs.Binding.CreationReports
import AnonymousObjects.Proofs.Compilation.Listing
import AnonymousObjects.Proofs.Syntax.Postfix
import AnonymousObjects.Proofs.Syntax.LentNames
import AnonymousObjects.Proofs.Binding.Receivers
import AnonymousObjects.Proofs.Compilation.Resolution
import AnonymousObjects.Proofs.Binding.Suppression
import AnonymousObjects.Proofs.Types.Dictionaries
import AnonymousObjects.Proofs.Syntax.StringTokens
import AnonymousObjects.Proofs.Compilation.VoidFields
import AnonymousObjects.Proofs.Syntax.Files
import AnonymousObjects.Proofs.Compilation.ShownTypes
import AnonymousObjects.Proofs.Syntax.Layout
import AnonymousObjects.Proofs.Compilation.Locations
