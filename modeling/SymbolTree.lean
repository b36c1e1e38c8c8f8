import SymbolTree.Arena.Conversion
import SymbolTree.Arena.Listing
import SymbolTree.Kind.Operator
import SymbolTree.Search.Run
import SymbolTree.Proofs.Arena.Consistent
import SymbolTree.Proofs.Arena.Command
import SymbolTree.Proofs.Arena.Frame
import SymbolTree.Proofs.Outline
import SymbolTree.Proofs.Search.Course
import SymbolTree.Proofs.Search.Effective
import SymbolTree.Proofs.Search.Lexical.Resolution
import SymbolTree.Proofs.Search.Undisturbed
import SymbolTree.Proofs.Search.Visible.Retains
import SymbolTree.Proofs.Search.Visible.Permission
import SymbolTree.Proofs.Search.Visible.Scope
import SymbolTree.Proofs.Arena.Protection
import SymbolTree.Proofs.Arena.Refusal
import SymbolTree.Proofs.Search.Balance
import SymbolTree.Proofs.Search.Unhindered.Tidy
import SymbolTree.Proofs.Search.Unhindered.Type
import SymbolTree.Proofs.Search.Unhindered.Scope
import SymbolTree.Proofs.Arena.Marks
import SymbolTree.Proofs.Arena.Guarding
import SymbolTree.Proofs.Arena.Forest
import SymbolTree.Proofs.Search.Selection.Winner
import SymbolTree.Proofs.Search.Legible
import SymbolTree.Proofs.Search.Lexical.Linking
import SymbolTree.Proofs.Search.Inherited.Hierarchy
import SymbolTree.Proofs.Search.Inherited.Member
import SymbolTree.Proofs.Search.Reports.Tracked
import SymbolTree.Proofs.Search.Reports.Quiet
import SymbolTree.Proofs.Search.Reports.Scope
import SymbolTree.Proofs.Search.Imported.Package
import SymbolTree.Proofs.Search.Imported.Index
import SymbolTree.Proofs.Search.Imported.Member
import SymbolTree.Proofs.Search.Imported.Labels
import SymbolTree.Proofs.Search.Imported.Import
import SymbolTree.Proofs.Search.Bounds.Scope
import SymbolTree.Proofs.Search.Referenced
import SymbolTree.Proofs.Arena.Body
import SymbolTree.Proofs.Search.Nearby
import SymbolTree.Proofs.Search.Imported.Origin
import SymbolTree.Proofs.Search.Imported.Yield
import SymbolTree.Proofs.Search.Visible.Enumeration
import SymbolTree.Proofs.Arena.Exchange
import SymbolTree.Proofs.Arena.Cleaning
import SymbolTree.Proofs.Arena.Clone
import SymbolTree.Proofs.Arena.Placement
import SymbolTree.Proofs.Search.Transparent
import SymbolTree.Proofs.Json.Written
import SymbolTree.Proofs.Json.Uncommented
import SymbolTree.Proofs.Database
import SymbolTree.Proofs.Search.Imported.Internal
import SymbolTree.Proofs.Search.Imported.Exact
import SymbolTree.Proofs.Search.Parameter
import SymbolTree.Proofs.Search.Selection.Assigned
import SymbolTree.Proofs.Json.Stripped
import SymbolTree.Proofs.Json.Ordered
import SymbolTree.Proofs.Database.Pattern
import SymbolTree.Proofs.Database.Recovery
import SymbolTree.Proofs.Search.Stable.Task
import SymbolTree.Proofs.Search.Rivals
import SymbolTree.Proofs.Search.Exclusive
import SymbolTree.Proofs.Database.Lookup
import SymbolTree.Proofs.Search.Imported.External
import SymbolTree.Proofs.Search.Inherited.Ascent
import SymbolTree.Proofs.Search.Inherited.Derived
import SymbolTree.Proofs.Search.Inherited.Distance
import SymbolTree.Proofs.Search.Inherited.Argument
import SymbolTree.Proofs.Arena.Order
import SymbolTree.Proofs.Search.Labels
